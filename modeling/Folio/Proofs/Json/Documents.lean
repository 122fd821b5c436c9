import Folio.Json.Reader
import Folio.Proofs.Json.Tokens

/-!
# Folio.Proofs.Json.Documents

Documents inside documents.

* `Json.nesting`: how deep arrays and objects stand inside each other.
* `Written.read?_eq_ite`: the depth that is allowed decides only whether there is a value, and the
  nesting of the value says which depths do.
* `Reader.foldlM_inside`: a reader takes the same steps whatever stands open around it.
* `ofText?_member`: the value of an object with one member, from the value of the member.
-/

namespace Folio
namespace Json

mutual

/-- How many arrays and objects stand inside each other. -/
def nesting : Json → Nat
  | array elements => nestingElements elements + 1
  | object members => nestingMembers members + 1
  | null => 0
  | bool _ => 0
  | number _ => 0
  | string _ => 0

def nestingElements : List Json → Nat
  | [] => 0
  | v :: rest => max (nesting v) (nestingElements rest)

def nestingMembers : List (String × Json) → Nat
  | [] => 0
  | (_, v) :: rest => max (nesting v) (nestingMembers rest)

end

/-! ## Depth -/

namespace Written

theorem readElements?_cons_eq_some_iff {depth : Nat} {w : Written} {rest : List Written}
    {vs : List Json} :
    readElements? depth (w :: rest) = some vs ↔
      ∃ v more, w.read? depth = some v ∧ readElements? depth rest = some more ∧
        vs = v :: more := by
  simp only [readElements?, Option.bind_eq_bind, Option.bind_eq_some_iff, Option.some.injEq]
  constructor
  · rintro ⟨v, hv, more, hmore, rfl⟩
    exact ⟨v, more, hv, hmore, rfl⟩
  · rintro ⟨v, more, hv, hmore, rfl⟩
    exact ⟨v, hv, more, hmore, rfl⟩

theorem readMembers?_cons_eq_some_iff {depth : Nat} {k : StringText} {w : Written}
    {rest : List (StringText × Written)} {ms : List (String × Json)} :
    readMembers? depth ((k, w) :: rest) = some ms ↔
      ∃ key v more, StringText.read? k = some key ∧ w.read? depth = some v ∧
        readMembers? depth rest = some more ∧ ms = (key, v) :: more := by
  simp only [readMembers?, Option.bind_eq_bind, Option.bind_eq_some_iff, Option.some.injEq]
  constructor
  · rintro ⟨key, hkey, v, hv, more, hmore, rfl⟩
    exact ⟨key, v, more, hkey, hv, hmore, rfl⟩
  · rintro ⟨key, v, more, hkey, hv, hmore, rfl⟩
    exact ⟨key, hkey, v, hv, more, hmore, rfl⟩

mutual

theorem nesting_of_read? {depth : Nat} : ∀ {w : Written} {v : Json}, w.read? depth = some v →
    v.nesting ≤ depth ∧ ∀ depth', v.nesting ≤ depth' → w.read? depth' = some v
  | null, _, h => by
    cases h
    exact ⟨Nat.zero_le _, fun _ _ => rfl⟩
  | bool _, _, h => by
    cases h
    exact ⟨Nat.zero_le _, fun _ _ => rfl⟩
  | number n, _, h => by
    rw [read?, Option.map_eq_some_iff] at h
    obtain ⟨x, hx, rfl⟩ := h
    exact ⟨Nat.zero_le _, fun _ _ => by rw [read?, hx]; rfl⟩
  | string s, _, h => by
    rw [read?, Option.map_eq_some_iff] at h
    obtain ⟨x, hx, rfl⟩ := h
    exact ⟨Nat.zero_le _, fun _ _ => by rw [read?, hx]; rfl⟩
  | array elements, _, h => by
    cases depth with
    | zero => cases h
    | succ d =>
      rw [read?, Option.map_eq_some_iff] at h
      obtain ⟨vs, hvs, rfl⟩ := h
      obtain ⟨hle, hdeep⟩ := nesting_of_readElements? hvs
      refine ⟨Nat.succ_le_succ hle, fun depth' hdepth => ?_⟩
      cases depth' with
      | zero => exact absurd hdepth (Nat.not_succ_le_zero _)
      | succ d' => rw [read?, hdeep d' (Nat.le_of_succ_le_succ hdepth)]; rfl
  | object members, _, h => by
    cases depth with
    | zero => cases h
    | succ d =>
      rw [read?, Option.map_eq_some_iff] at h
      obtain ⟨ms, hms, rfl⟩ := h
      obtain ⟨hle, hdeep⟩ := nesting_of_readMembers? hms
      refine ⟨Nat.succ_le_succ hle, fun depth' hdepth => ?_⟩
      cases depth' with
      | zero => exact absurd hdepth (Nat.not_succ_le_zero _)
      | succ d' => rw [read?, hdeep d' (Nat.le_of_succ_le_succ hdepth)]; rfl

theorem nesting_of_readElements? {depth : Nat} : ∀ {ws : List Written} {vs : List Json},
    readElements? depth ws = some vs → nestingElements vs ≤ depth ∧
      ∀ depth', nestingElements vs ≤ depth' → readElements? depth' ws = some vs
  | [], _, h => by
    cases h
    exact ⟨Nat.zero_le _, fun _ _ => rfl⟩
  | w :: rest, _, h => by
    obtain ⟨v, more, hv, hmore, rfl⟩ := readElements?_cons_eq_some_iff.mp h
    obtain ⟨hle, hdeep⟩ := nesting_of_read? hv
    obtain ⟨hle', hdeep'⟩ := nesting_of_readElements? hmore
    rw [nestingElements]
    refine ⟨Nat.max_le.mpr ⟨hle, hle'⟩, fun depth' hdepth => ?_⟩
    obtain ⟨hhead, htail⟩ := Nat.max_le.mp hdepth
    exact readElements?_cons_eq_some_iff.mpr
      ⟨v, more, hdeep depth' hhead, hdeep' depth' htail, rfl⟩

theorem nesting_of_readMembers? {depth : Nat} :
    ∀ {ws : List (StringText × Written)} {ms : List (String × Json)},
    readMembers? depth ws = some ms → nestingMembers ms ≤ depth ∧
      ∀ depth', nestingMembers ms ≤ depth' → readMembers? depth' ws = some ms
  | [], _, h => by
    cases h
    exact ⟨Nat.zero_le _, fun _ _ => rfl⟩
  | (k, w) :: rest, _, h => by
    obtain ⟨key, v, more, hkey, hv, hmore, rfl⟩ := readMembers?_cons_eq_some_iff.mp h
    obtain ⟨hle, hdeep⟩ := nesting_of_read? hv
    obtain ⟨hle', hdeep'⟩ := nesting_of_readMembers? hmore
    rw [nestingMembers]
    refine ⟨Nat.max_le.mpr ⟨hle, hle'⟩, fun depth' hdepth => ?_⟩
    obtain ⟨hhead, htail⟩ := Nat.max_le.mp hdepth
    exact readMembers?_cons_eq_some_iff.mpr
      ⟨key, v, more, hkey, hdeep depth' hhead, hdeep' depth' htail, rfl⟩

end

/-- A document with a value has it at all depths from the nesting of the value on, and at no
other. -/
theorem read?_eq_ite {depth : Nat} {w : Written} {v : Json} (h : w.read? depth = some v)
    (depth' : Nat) : w.read? depth' = if v.nesting ≤ depth' then some v else none := by
  obtain ⟨hle, hdeep⟩ := nesting_of_read? h
  split
  · rename_i hroom
    exact hdeep depth' hroom
  · rename_i hroom
    cases h' : w.read? depth' with
    | none => rfl
    | some v' =>
      obtain ⟨hle', hdeep'⟩ := nesting_of_read? h'
      have hv := hdeep (max depth depth') (Nat.le_trans hle (Nat.le_max_left _ _))
      rw [hdeep' (max depth depth') (Nat.le_trans hle' (Nat.le_max_right _ _))] at hv
      cases hv
      exact absurd hle' hroom

end Written

/-! ## Inside an object -/

namespace Reader

/-- The same state with more frames around it. -/
def inside (outer : List Frame) : Reader → Reader
  | value frames => value (frames ++ outer)
  | element frames => element (frames ++ outer)
  | member frames => member (frames ++ outer)
  | key members frames => key members (frames ++ outer)
  | colon members k frames => colon members k (frames ++ outer)
  | done v frames => done v (frames ++ outer)

theorem stepValue?_inside {frames : List Frame} {token : Token} {r : Reader} (outer : List Frame)
    (h : stepValue? frames token = some r) :
    stepValue? (frames ++ outer) token = some (r.inside outer) := by
  cases token <;> cases h <;> rfl

theorem step?_inside {r r' : Reader} {token : Token} (outer : List Frame)
    (h : step? r token = some r') : step? (r.inside outer) token = some (r'.inside outer) := by
  cases r with
  | value frames => exact stepValue?_inside outer h
  | element frames => cases token <;> cases h <;> rfl
  | member frames => cases token <;> cases h <;> rfl
  | key members frames =>
    cases token <;> cases h
    rfl
  | colon members k frames =>
    cases token <;> cases h
    rfl
  | done v frames =>
    cases frames with
    | nil => cases h
    | cons frame rest =>
      cases frame with
      | array elements => cases token <;> cases h <;> rfl
      | object members k => cases token <;> cases h <;> rfl

theorem foldlM_inside {tokens : List Token} {r r' : Reader} (outer : List Frame)
    (h : tokens.foldlM step? r = some r') :
    tokens.foldlM step? (r.inside outer) = some (r'.inside outer) := by
  induction tokens generalizing r with
  | nil =>
    cases h
    rfl
  | cons token rest ih =>
    rw [List.foldlM_cons, Option.bind_eq_bind, Option.bind_eq_some_iff] at h
    obtain ⟨next, hstep, hrest⟩ := h
    rw [List.foldlM_cons, step?_inside outer hstep]
    exact ih hrest

end Reader

theorem Written.foldlM_of_ofTokens? {tokens : List Token} {w : Written}
    (h : ofTokens? tokens = some w) :
    tokens.foldlM Reader.step? (.value []) = some (.done w []) := by
  unfold ofTokens? at h
  split at h
  · rename_i hfold
    cases h
    exact hfold
  · cases h

theorem Written.ofTokens?_member {tokens : List Token} {w : Written} (key : StringText)
    (h : ofTokens? tokens = some w) :
    ofTokens? (.openObject :: .string key :: .colon :: (tokens ++ [.closeObject])) =
      some (.object [(key, w)]) := by
  have hinner := Reader.foldlM_inside [.object [] key] (foldlM_of_ofTokens? h)
  have houter : (Token.openObject :: .string key :: .colon :: (tokens ++ [.closeObject])).foldlM
      Reader.step? (.value []) = some (.done (.object [(key, w)]) []) := by
    calc
      _ = (tokens ++ [Token.closeObject]).foldlM Reader.step? (.value [.object [] key]) := rfl
      _ = [Token.closeObject].foldlM Reader.step? (.done w [.object [] key]) := by
        rw [List.foldlM_append]
        exact congrArg (· >>= _) hinner
      _ = some (.done (.object [(key, w)]) []) := rfl
  rw [ofTokens?, houter]

/-! ## Texts with one member -/

/-- A character that stands for itself in a string. -/
def isPlain (c : Char) : Bool :=
  c != '"' && c != '\\' && 32 ≤ c.toNat

theorem Token.scanString?_of_plain {cs : List Char} (found : List Piece) (rest : List Char)
    (h : cs.all isPlain) :
    scanString? found (cs ++ '"' :: rest) = some (found.reverse ++ cs.map .char, rest) := by
  induction cs generalizing found with
  | nil => simp [scanString?]
  | cons c cs ih =>
    rw [List.all_cons, Bool.and_eq_true] at h
    obtain ⟨hc, hrest⟩ := h
    simp only [isPlain, Bool.and_eq_true, bne_iff_ne, ne_eq, decide_eq_true_eq] at hc
    obtain ⟨⟨hquote, hescape⟩, hcontrol⟩ := hc
    have hplain : ¬ (decide (c = '\\') || decide (c.toNat < 32)) = true := by
      simp [hescape, hcontrol]
    rw [List.cons_append, scanString?, if_neg hplain, ih (.char c :: found) hrest]
    · simp
    · exact hquote
    · exact fun _ _ _ _ _ heq => absurd heq hescape
    · exact fun _ _ heq => absurd heq hescape

theorem readPieces?_chars (found cs : List Char) :
    readPieces? found (cs.map .char) = some (found.reverse ++ cs) := by
  induction cs generalizing found with
  | nil => simp [readPieces?]
  | cons c cs ih => rw [List.map_cons, readPieces?, ih]; simp

theorem Token.ofChars?_member {k s : List Char} {tokens : List Token} (hk : k.all isPlain)
    (h : ofChars? s = some tokens) :
    ofChars? ('\x7b' :: '"' :: (k ++ '"' :: ':' :: (s ++ ['\x7d']))) =
      some (.openObject :: .string (k.map .char) :: .colon :: (tokens ++ [.closeObject])) := by
  have hclose : ofChars? (s ++ ['\x7d']) = some (tokens ++ [closeObject]) := by
    have hapart : Apart ['\x7d'] := by refine ⟨rfl, ?_, ?_, ?_⟩ <;> decide
    have hlast : ofChars? ['\x7d'] = some [closeObject] := by
      rw [ofChars?, ← collectWithin_eq_collect? (by decide : _ < 2)]
      rfl
    rw [ofChars?_append hapart h, hlast]
    rfl
  calc
    _ = collect? [openObject] ('"' :: (k ++ '"' :: ':' :: (s ++ ['\x7d']))) :=
      collect?_of_scan? rfl
    _ = collect? [string (k.map .char), openObject] (':' :: (s ++ ['\x7d'])) := by
      refine collect?_of_scan? ?_
      rw [List.dropWhile_cons_of_neg (by decide), scan?, scanString?_of_plain [] _ hk]
      rfl
    _ = collect? [colon, string (k.map .char), openObject] (s ++ ['\x7d']) :=
      collect?_of_scan? rfl
    _ = _ := by
      rw [collect?_eq_map, hclose]
      rfl

/-- The text of an object whose only member has a text as its value. -/
def member (k d : String) : String :=
  "\x7b\"" ++ k ++ "\":" ++ d ++ "\x7d"

theorem toList_member (k d : String) :
    (member k d).toList = '\x7b' :: '"' :: (k.toList ++ '"' :: ':' :: (d.toList ++ ['\x7d'])) := by
  simp [member]

/-- The text around a text with a value has that value as its member, unless the value is nested
as deep as values may be. -/
theorem ofText?_member {k d : String} {v : Json} (hk : k.toList.all isPlain)
    (h : ofText? d = some v) :
    ofText? (member k d) =
      if v.nesting < Written.maxDepth then some (object [(k, v)]) else none := by
  obtain ⟨w, hw, hread⟩ := Option.bind_eq_some_iff.mp h
  obtain ⟨tokens, htokens, hdocument⟩ := Option.bind_eq_some_iff.mp hw
  have hmember : Written.ofText? (member k d) = some (.object [(k.toList.map .char, w)]) := by
    rw [Written.ofText?, toList_member, Token.ofChars?_member hk htokens]
    exact Written.ofTokens?_member _ hdocument
  have hkey : StringText.read? (k.toList.map .char) = some k := by
    rw [StringText.read?, readPieces?_chars]
    simp
  -- the object takes one level of the depth that is left to the value
  have hvalue : (Written.object [(k.toList.map .char, w)]).read? Written.maxDepth =
      (w.read? (Written.maxDepth - 1)).map fun v => object [(k, v)] := by
    change (Written.readMembers? (Written.maxDepth - 1) [(_, w)]).map object = _
    simp only [Written.readMembers?, hkey, Option.bind_eq_bind, Option.bind_some]
    cases w.read? (Written.maxDepth - 1) <;> rfl
  have hroom : v.nesting ≤ Written.maxDepth - 1 ↔ v.nesting < Written.maxDepth :=
    Nat.le_sub_one_iff_lt (by decide)
  rw [ofText?, hmember, Option.bind_eq_bind, Option.bind_some, hvalue, Written.read?_eq_ite hread]
  by_cases hlt : v.nesting < Written.maxDepth
  · rw [if_pos hlt, if_pos (hroom.mpr hlt)]
    rfl
  · rw [if_neg hlt, if_neg (mt hroom.mp hlt)]
    rfl

end Json
end Folio
