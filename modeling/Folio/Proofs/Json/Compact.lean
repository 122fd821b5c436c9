import Folio.Json.Writer
import Folio.Proofs.Json.Documents

/-!
# Folio.Proofs.Json.Compact

Values that are written without blanks are read back, as long as no number stands in them.

* `Json.isWorded`: values without numbers.
* `Token.Cuts`: characters that are cut into the same tokens whatever follows them.
* `Spells`, `SpellsElements`, `SpellsMembers`: characters that are read as a value, and as the rest
  of an array or object that is open.
* `ofText?_compact`: the value of a written text.
* `Json.Fits`: values without numbers that are nested no deeper than a bound.
-/

namespace Folio
namespace Json

mutual

/-- No number stands in the value. -/
def isWorded : Json → Bool
  | number _ => false
  | array elements => areWorded elements
  | object members => areWordedMembers members
  | null => true
  | bool _ => true
  | string _ => true

def areWorded : List Json → Bool
  | [] => true
  | v :: rest => isWorded v && areWorded rest

def areWordedMembers : List (String × Json) → Bool
  | [] => true
  | (_, v) :: rest => isWorded v && areWordedMembers rest

end

/-! ## Strings -/

/-- A character of a string as it is read. Control characters without a letter of their own are
written as units. -/
def piece (c : Char) : Piece :=
  if c.toNat < 32 && !"\n\r\t\x08\x0c".toList.contains c then .unit c.toNat else .char c

theorem unit?_control :
    ∀ n < 32, Token.unit? '0' '0' (hexDigit (n / 16)) (hexDigit (n % 16)) = some n := by
  decide

theorem Token.scanString?_quoteChar (found : List Piece) (c : Char) (rest : List Char) :
    scanString? found (quoteChar c ++ rest) = scanString? (piece c :: found) rest := by
  unfold quoteChar
  split
  · rfl
  · rfl
  · rfl
  · rfl
  · rfl
  · rfl
  · rfl
  · -- no escape of one letter: a code point in four digits, or the character itself
    rename_i hquote hescape hn hr ht hb hf
    have hlisted : "\n\r\t\x08\x0c".toList.contains c = false := by
      simpa using ⟨hn, hr, ht, hb, hf⟩
    rw [piece, hlisted]
    split
    · rename_i hcontrol
      simp [scanString?, unit?_control c.toNat hcontrol, hcontrol]
    · rename_i hplain
      have hother : ¬ (decide (c = '\\') || decide (c.toNat < 32)) = true := by
        simpa [hplain] using hescape
      rw [List.singleton_append, scanString?, if_neg hother]
      · simp [hplain]
      · exact hquote
      · exact fun _ _ _ _ _ heq => absurd heq hescape
      · exact fun _ _ heq => absurd heq hescape

theorem Token.scanString?_quoted (found : List Piece) (cs rest : List Char) :
    scanString? found (cs.flatMap quoteChar ++ '"' :: rest) =
      some (found.reverse ++ cs.map piece, rest) := by
  induction cs generalizing found with
  | nil => simp [scanString?]
  | cons c cs ih =>
    rw [List.flatMap_cons, List.append_assoc, scanString?_quoteChar, ih]
    simp

theorem readPieces?_piece (found : List Char) (c : Char) (rest : StringText) :
    readPieces? found (piece c :: rest) = readPieces? (c :: found) rest := by
  unfold piece
  split
  · rename_i hcontrol
    have hlow : c.toNat < 32 := by
      simp only [Bool.and_eq_true, decide_eq_true_eq] at hcontrol
      exact hcontrol.1
    have hlead : isLeading c.toNat = false := by
      simp [isLeading]
      omega
    have htrail : isTrailing c.toNat = false := by
      simp [isTrailing]
      omega
    have hchar : Char.ofNat c.toNat = c := Char.ofNat_toNat c
    cases rest with
    | nil => simp [readPieces?, hlead, htrail, hchar]
    | cons next rest => cases next <;> simp [readPieces?, hlead, htrail, hchar]
  · rw [readPieces?]

theorem read?_pieces (s : String) : StringText.read? (s.toList.map piece) = some s := by
  have hread (found cs : List Char) :
      readPieces? found (cs.map piece) = some (found.reverse ++ cs) := by
    induction cs generalizing found with
    | nil => simp [readPieces?]
    | cons c cs ih => rw [List.map_cons, readPieces?_piece, ih]; simp
  rw [StringText.read?, hread]
  simp

/-! ## Tokens -/

namespace Token

/-- The characters are cut into the tokens, whatever follows them. -/
def Cuts (cs : List Char) (ts : List Token) : Prop :=
  ∀ found rest, collect? found (cs ++ rest) = collect? (ts.reverse ++ found) rest

theorem Cuts.append {cs ds : List Char} {ts us : List Token} (hcs : Cuts cs ts)
    (hds : Cuts ds us) : Cuts (cs ++ ds) (ts ++ us) := by
  intro found rest
  rw [List.append_assoc, hcs, hds, List.reverse_append, List.append_assoc]

theorem cuts_of_scan? {c : Char} {cs : List Char} {t : Token} (hblank : isBlank c = false)
    (h : ∀ rest, scan? (c :: (cs ++ rest)) = some (t, rest)) : Cuts (c :: cs) [t] := by
  intro found rest
  refine collect?_of_scan? ?_
  rw [List.cons_append, List.dropWhile_cons_of_neg (by simp [hblank])]
  exact h rest

/-- A mark of one character, and then the rest. -/
theorem Cuts.mark {c : Char} {cs : List Char} {t : Token} {ts : List Token}
    (hblank : isBlank c = false) (h : ∀ rest, scan? (c :: rest) = some (t, rest))
    (hcs : Cuts cs ts) : Cuts (c :: cs) (t :: ts) :=
  have hmark : Cuts [c] [t] := cuts_of_scan? hblank h
  hmark.append hcs

theorem cuts_quote (s : String) : Cuts (quote s) [string (s.toList.map piece)] := by
  refine cuts_of_scan? (by decide) fun rest => ?_
  rw [List.append_assoc, List.singleton_append, scan?, scanString?_quoted]
  rfl

end Token

/-! ## Values -/

open Token (Cuts)

/-- The characters are read as the value wherever a value may stand, by way of the tokens and the
document. -/
structure Spells (cs : List Char) (v : Json) (ts : List Token) (w : Written) : Prop where
  cuts : Cuts cs ts
  first : ts.head? ≠ some .closeArray
  value : ∀ frames, ts.foldlM Reader.step? (.value frames) = some (.done w frames)
  read : ∀ depth, v.nesting ≤ depth → w.read? depth = some v

/-- Behind an element the characters are read as the other elements and the end of the array. -/
structure SpellsElements (cs : List Char) (vs : List Json) (ts : List Token)
    (ws : List Written) : Prop where
  cuts : Cuts cs ts
  close : ∀ w before frames, ts.foldlM Reader.step? (.done w (.array before :: frames)) =
    some (.done (.array ((w :: before).reverse ++ ws)) frames)
  read : ∀ depth, nestingElements vs ≤ depth → Written.readElements? depth ws = some vs

/-- Behind a member the characters are read as the other members and the end of the object. -/
structure SpellsMembers (cs : List Char) (ms : List (String × Json)) (ts : List Token)
    (ws : List (StringText × Written)) : Prop where
  cuts : Cuts cs ts
  close : ∀ w k before frames, ts.foldlM Reader.step? (.done w (.object before k :: frames)) =
    some (.done (.object (((k, w) :: before).reverse ++ ws)) frames)
  read : ∀ depth, nestingMembers ms ≤ depth → Written.readMembers? depth ws = some ms

/-- Behind the bracket that opens an array a value is read as its first element. -/
theorem Spells.element {cs : List Char} {v : Json} {ts : List Token} {w : Written}
    (h : Spells cs v ts w) (frames : List Frame) :
    ts.foldlM Reader.step? (.element frames) = some (.done w (.array [] :: frames)) := by
  rw [← h.value (.array [] :: frames)]
  cases ts with
  | nil => cases h.value []
  | cons t rest =>
    have hfirst : Reader.step? (.element frames) t =
        Reader.step? (.value (.array [] :: frames)) t := by
      cases t with
      | closeArray => exact absurd rfl h.first
      | _ => rfl
    rw [List.foldlM_cons, List.foldlM_cons, hfirst]

/-- A value that is one token. -/
theorem Spells.of_token {cs : List Char} {v : Json} {t : Token} {w : Written} (hcuts : Cuts cs [t])
    (hstep : ∀ frames, Reader.stepValue? frames t = some (.done w frames))
    (hread : ∀ depth, w.read? depth = some v) : Spells cs v [t] w where
  cuts := hcuts
  first := fun heq => by
    cases heq
    cases hstep []
  value := fun frames => by
    rw [List.foldlM_cons, Reader.step?, hstep]
    rfl
  read := fun depth _ => hread depth

theorem foldlM_append_of {ts us : List Token} {r r' : Reader}
    (h : ts.foldlM Reader.step? r = some r') :
    (ts ++ us).foldlM Reader.step? r = us.foldlM Reader.step? r' := by
  rw [List.foldlM_append, h]
  rfl

theorem SpellsElements.nil : SpellsElements [']'] [] [.closeArray] [] where
  cuts := Token.cuts_of_scan? (by decide) fun _ => rfl
  close := fun w before frames => by simp [Reader.step?]
  read := fun _ _ => rfl

theorem SpellsElements.cons {cs ds : List Char} {v : Json} {vs : List Json} {ts us : List Token}
    {w : Written} {ws : List Written} (hv : Spells cs v ts w) (hvs : SpellsElements ds vs us ws) :
    SpellsElements (',' :: (cs ++ ds)) (v :: vs) (.comma :: (ts ++ us)) (w :: ws) where
  cuts := Cuts.mark (by decide) (fun _ => rfl) (hv.cuts.append hvs.cuts)
  close := fun first before frames => by
    calc
      _ = (ts ++ us).foldlM Reader.step? (.value (.array (first :: before) :: frames)) := rfl
      _ = us.foldlM Reader.step? (.done w (.array (first :: before) :: frames)) :=
        foldlM_append_of (hv.value _)
      _ = _ := by
        rw [hvs.close]
        simp
  read := fun depth hdepth => by
    obtain ⟨hhead, htail⟩ := Nat.max_le.mp hdepth
    exact Written.readElements?_cons_eq_some_iff.mpr
      ⟨v, vs, hv.read depth hhead, hvs.read depth htail, rfl⟩

theorem SpellsMembers.nil : SpellsMembers ['\x7d'] [] [.closeObject] [] where
  cuts := Token.cuts_of_scan? (by decide) fun _ => rfl
  close := fun w k before frames => by simp [Reader.step?]
  read := fun _ _ => rfl

theorem SpellsMembers.cons {cs ds : List Char} {k : String} {v : Json} {ms : List (String × Json)}
    {ts us : List Token} {w : Written} {ws : List (StringText × Written)} (hv : Spells cs v ts w)
    (hms : SpellsMembers ds ms us ws) :
    SpellsMembers (',' :: (quote k ++ ':' :: (cs ++ ds))) ((k, v) :: ms)
      (.comma :: .string (k.toList.map piece) :: .colon :: (ts ++ us))
      ((k.toList.map piece, w) :: ws) where
  cuts :=
    Cuts.mark (by decide) (fun _ => rfl) <| (Token.cuts_quote k).append <|
      Cuts.mark (by decide) (fun _ => rfl) (hv.cuts.append hms.cuts)
  close := fun first key before frames => by
    calc
      _ = (ts ++ us).foldlM Reader.step?
          (.value (.object ((key, first) :: before) (k.toList.map piece) :: frames)) := rfl
      _ = us.foldlM Reader.step?
          (.done w (.object ((key, first) :: before) (k.toList.map piece) :: frames)) :=
        foldlM_append_of (hv.value _)
      _ = _ := by
        rw [hms.close]
        simp
  read := fun depth hdepth => by
    obtain ⟨hhead, htail⟩ := Nat.max_le.mp hdepth
    exact Written.readMembers?_cons_eq_some_iff.mpr
      ⟨k, v, ms, read?_pieces k, hv.read depth hhead, hms.read depth htail, rfl⟩

/-- The first element of an array, and then the others. -/
theorem SpellsElements.array {cs ds : List Char} {v : Json} {vs : List Json} {ts us : List Token}
    {w : Written} {ws : List Written} (hv : Spells cs v ts w) (hvs : SpellsElements ds vs us ws) :
    Spells ('[' :: (cs ++ ds)) (.array (v :: vs)) (.openArray :: (ts ++ us))
      (.array (w :: ws)) where
  cuts := Cuts.mark (by decide) (fun _ => rfl) (hv.cuts.append hvs.cuts)
  first := nofun
  value := fun frames => by
    calc
      _ = (ts ++ us).foldlM Reader.step? (.element frames) := rfl
      _ = us.foldlM Reader.step? (.done w (.array [] :: frames)) :=
        foldlM_append_of (hv.element _)
      _ = _ := hvs.close w [] frames
  read := fun depth hdepth => by
    cases depth with
    | zero => exact absurd hdepth (Nat.not_succ_le_zero _)
    | succ d =>
      obtain ⟨hhead, htail⟩ := Nat.max_le.mp (Nat.le_of_succ_le_succ hdepth)
      have hread := Written.readElements?_cons_eq_some_iff.mpr
        ⟨v, vs, hv.read d hhead, hvs.read d htail, rfl⟩
      rw [Written.read?, hread]
      rfl

/-- The first member of an object, and then the others. -/
theorem SpellsMembers.object {cs ds : List Char} {k : String} {v : Json}
    {ms : List (String × Json)} {ts us : List Token} {w : Written}
    {ws : List (StringText × Written)} (hv : Spells cs v ts w) (hms : SpellsMembers ds ms us ws) :
    Spells ('\x7b' :: (quote k ++ ':' :: (cs ++ ds))) (.object ((k, v) :: ms))
      (.openObject :: .string (k.toList.map piece) :: .colon :: (ts ++ us))
      (.object ((k.toList.map piece, w) :: ws)) where
  cuts :=
    Cuts.mark (by decide) (fun _ => rfl) <| (Token.cuts_quote k).append <|
      Cuts.mark (by decide) (fun _ => rfl) (hv.cuts.append hms.cuts)
  first := nofun
  value := fun frames => by
    calc
      _ = (ts ++ us).foldlM Reader.step? (.value (.object [] (k.toList.map piece) :: frames)) := rfl
      _ = us.foldlM Reader.step? (.done w (.object [] (k.toList.map piece) :: frames)) :=
        foldlM_append_of (hv.value _)
      _ = _ := hms.close w _ [] frames
  read := fun depth hdepth => by
    cases depth with
    | zero => exact absurd hdepth (Nat.not_succ_le_zero _)
    | succ d =>
      obtain ⟨hhead, htail⟩ := Nat.max_le.mp (Nat.le_of_succ_le_succ hdepth)
      have hread := Written.readMembers?_cons_eq_some_iff.mpr
        ⟨k, v, ms, read?_pieces k, hv.read d hhead, hms.read d htail, rfl⟩
      rw [Written.read?, hread]
      rfl

theorem spells_emptyArray :
    Spells ['[', ']'] (.array []) [.openArray, .closeArray] (.array []) where
  cuts := Cuts.mark (by decide) (fun _ => rfl) (Token.cuts_of_scan? (by decide) fun _ => rfl)
  first := nofun
  value := fun _ => rfl
  read := fun depth hdepth => by
    cases depth with
    | zero => exact absurd hdepth (Nat.not_succ_le_zero _)
    | succ d => rfl

theorem spells_emptyObject :
    Spells ['\x7b', '\x7d'] (.object []) [.openObject, .closeObject] (.object []) where
  cuts := Cuts.mark (by decide) (fun _ => rfl) (Token.cuts_of_scan? (by decide) fun _ => rfl)
  first := nofun
  value := fun _ => rfl
  read := fun depth hdepth => by
    cases depth with
    | zero => exact absurd hdepth (Nat.not_succ_le_zero _)
    | succ d => rfl

mutual

theorem spells_compactChars :
    ∀ {v : Json}, v.isWorded = true → ∃ ts w, Spells v.compactChars v ts w
  | null, _ =>
    ⟨_, _, .of_token (Token.cuts_of_scan? (by decide) fun _ => rfl) (fun _ => rfl) fun _ => rfl⟩
  | bool true, _ =>
    ⟨_, _, .of_token (Token.cuts_of_scan? (by decide) fun _ => rfl) (fun _ => rfl) fun _ => rfl⟩
  | bool false, _ =>
    ⟨_, _, .of_token (Token.cuts_of_scan? (by decide) fun _ => rfl) (fun _ => rfl) fun _ => rfl⟩
  | string s, _ =>
    ⟨_, _, .of_token (Token.cuts_quote s) (fun _ => rfl) fun _ => by
      rw [Written.read?, read?_pieces]
      rfl⟩
  | array [], _ => ⟨_, _, spells_emptyArray⟩
  | array (v :: rest), h => by
    obtain ⟨hv, hrest⟩ := Bool.and_eq_true_iff.mp h
    obtain ⟨ts, w, hspells⟩ := spells_compactChars hv
    obtain ⟨us, ws, helements⟩ := spellsElements_compactElements hrest
    exact ⟨_, _, helements.array hspells⟩
  | object [], _ => ⟨_, _, spells_emptyObject⟩
  | object ((k, v) :: rest), h => by
    obtain ⟨hv, hrest⟩ := Bool.and_eq_true_iff.mp h
    obtain ⟨ts, w, hspells⟩ := spells_compactChars hv
    obtain ⟨us, ws, hmembers⟩ := spellsMembers_compactMembers hrest
    exact ⟨_, _, hmembers.object hspells⟩

theorem spellsElements_compactElements :
    ∀ {vs : List Json}, areWorded vs = true → ∃ ts ws, SpellsElements (compactElements vs) vs ts ws
  | [], _ => ⟨_, _, .nil⟩
  | v :: rest, h => by
    obtain ⟨hv, hrest⟩ := Bool.and_eq_true_iff.mp h
    obtain ⟨ts, w, hspells⟩ := spells_compactChars hv
    obtain ⟨us, ws, helements⟩ := spellsElements_compactElements hrest
    exact ⟨_, _, .cons hspells helements⟩

theorem spellsMembers_compactMembers :
    ∀ {ms : List (String × Json)}, areWordedMembers ms = true →
      ∃ ts ws, SpellsMembers (compactMembers ms) ms ts ws
  | [], _ => ⟨_, _, .nil⟩
  | (k, v) :: rest, h => by
    obtain ⟨hv, hrest⟩ := Bool.and_eq_true_iff.mp h
    obtain ⟨ts, w, hspells⟩ := spells_compactChars hv
    obtain ⟨us, ws, hmembers⟩ := spellsMembers_compactMembers hrest
    exact ⟨_, _, .cons hspells hmembers⟩

end

/-- A value without numbers is read back from what is written of it, unless it is nested deeper than
values may be. -/
theorem ofText?_compact {v : Json} (h : v.isWorded = true) (hroom : v.nesting ≤ Written.maxDepth) :
    ofText? v.compact = some v := by
  obtain ⟨ts, w, hspells⟩ := spells_compactChars h
  have htokens : Token.ofChars? v.compactChars = some ts := by
    have hcuts := hspells.cuts [] []
    rw [List.append_nil, List.append_nil, Token.collect?_of_blank (s := []) rfl,
      List.reverse_reverse] at hcuts
    exact hcuts
  have hdocument : Written.ofTokens? ts = some w := by
    rw [Written.ofTokens?, hspells.value]
  rw [ofText?, Written.ofText?, compact, String.toList_ofList, htokens, Option.bind_eq_bind,
    Option.bind_eq_bind, Option.bind_some, hdocument, Option.bind_some]
  exact hspells.read Written.maxDepth hroom

/-! ## Bounded values -/

/-- No number stands in the value, and it is nested no deeper than the bound. -/
structure Fits (bound : Nat) (v : Json) : Prop where
  isWorded : v.isWorded = true
  nesting_le : v.nesting ≤ bound

theorem fits_string (bound : Nat) (s : String) : Fits bound (.string s) :=
  ⟨rfl, Nat.zero_le bound⟩

theorem Fits.array {bound : Nat} {vs : List Json} (h : ∀ v ∈ vs, Fits bound v) :
    Fits (bound + 1) (.array vs) := by
  suffices hall : areWorded vs = true ∧ nestingElements vs ≤ bound from
    ⟨hall.1, Nat.succ_le_succ hall.2⟩
  induction vs with
  | nil => exact ⟨rfl, Nat.zero_le bound⟩
  | cons v rest ih =>
    obtain ⟨hv, hrest⟩ := List.forall_mem_cons.mp h
    obtain ⟨hworded, hle⟩ := ih hrest
    exact ⟨Bool.and_eq_true_iff.mpr ⟨hv.isWorded, hworded⟩, Nat.max_le.mpr ⟨hv.nesting_le, hle⟩⟩

theorem Fits.object {bound : Nat} {ms : List (String × Json)} (h : ∀ m ∈ ms, Fits bound m.2) :
    Fits (bound + 1) (.object ms) := by
  suffices hall : areWordedMembers ms = true ∧ nestingMembers ms ≤ bound from
    ⟨hall.1, Nat.succ_le_succ hall.2⟩
  induction ms with
  | nil => exact ⟨rfl, Nat.zero_le bound⟩
  | cons m rest ih =>
    obtain ⟨hm, hrest⟩ := List.forall_mem_cons.mp h
    obtain ⟨hworded, hle⟩ := ih hrest
    exact ⟨Bool.and_eq_true_iff.mpr ⟨hm.isWorded, hworded⟩, Nat.max_le.mpr ⟨hm.nesting_le, hle⟩⟩

theorem Fits.ofText?_compact {bound : Nat} {v : Json} (h : Fits bound v)
    (hbound : bound ≤ Written.maxDepth) : ofText? v.compact = some v :=
  Json.ofText?_compact h.isWorded (Nat.le_trans h.nesting_le hbound)

end Json
end Folio
