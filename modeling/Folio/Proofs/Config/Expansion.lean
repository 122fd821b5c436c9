import Folio.Config.File
import Mathlib.Data.List.Basic

/-!
# Folio.Proofs.Config.Expansion

Texts with references to the environment, and what is made of the `$` that stand beside them. A text
is made of literal parts and references in braces, and only the references are meant to be
replaced. A text without references is indeed taken as it stands, whatever `$` are in it. In a text
with references, a `$` in a literal part is read together with another `$` or a name behind it.

* `Piece.Proper`: the parts that a text can be made of.
* `Expansion.meaning`: what a text of parts is meant to stand for.
* `pieces_written`: no part is misread if the literal parts have no such `$`.
* `length_emptied`: in front of any text, a literal part that has one loses characters.
* `only_references_are_replaced_iff`: the texts that stand for what they are meant to.
* `dollar_beside_reference_is_read`: a text that does not.
-/

namespace Folio
namespace Expansion

/-! ## Texts made of parts -/

namespace Piece

/-- What stands between the braces of a reference. -/
def body (name : List Char) : Option (List Char) → List Char
  | none => name
  | some default => name ++ ':' :: '-' :: default

def write : Piece → List Char
  | literal s => s
  | reference name default => '$' :: '\x7b' :: (body name default ++ ['\x7d'])

/-- Whether a part refers to the environment. -/
def isReference : Piece → Bool
  | literal _ => false
  | reference _ _ => true

/-- A literal part neither holds `${` nor ends in `$`. A name has at least one character and no `:-`,
and there is no closing brace in it and in a default. -/
def Proper : Piece → Prop
  | literal s => ¬ ['$', '\x7b'] <:+: s ∧ s.getLast? ≠ some '$'
  | reference name default =>
    name ≠ [] ∧ ¬ [':', '-'] <:+: name ∧ '\x7d' ∉ name ∧ ∀ d ∈ default, '\x7d' ∉ d

/-- The text that a part is meant to stand for if no variable is missing. -/
def text (lookup : String → Option String) : Piece → List Char
  | literal s => s
  | reference name default =>
    match lookup (String.ofList name) with
    | some v => v.toList
    | none => default.getD []

/-- The variable of a reference without a default, if it is not set. -/
def missing? (lookup : String → Option String) : Piece → Option String
  | literal _ => none
  | reference _ (some _) => none
  | reference name none =>
    match lookup (String.ofList name) with
    | some _ => none
    | none => some (String.ofList name)

end Piece

def written (parts : List Piece) : List Char :=
  parts.flatMap Piece.write

/-- What a text of parts is meant to stand for. The literal parts stay, the references are replaced,
and the first variable that is needed and not set is an error. -/
def meaning (lookup : String → Option String) (parts : List Piece) : Except String String :=
  match parts.findSome? (Piece.missing? lookup) with
  | some name => .error name
  | none => .ok (String.ofList (parts.flatMap (Piece.text lookup)))

/-- No `$` in a literal part stands in front of another one or of a name. -/
def BareDollars (s : List Char) : Prop :=
  ∀ c, ['$', c] <:+: s → c ≠ '$' ∧ isNameChar c = false

theorem bareDollars_nil : BareDollars [] := by
  intro c hinfix
  cases List.eq_nil_of_infix_nil hinfix

theorem bareDollars_cons {c : Char} {s : List Char} :
    BareDollars (c :: s) ↔
      (c = '$' → ∀ c' ∈ s.head?, c' ≠ '$' ∧ isNameChar c' = false) ∧ BareDollars s := by
  constructor
  · intro h
    refine ⟨?_, fun c' hinfix => h c' (List.infix_cons hinfix)⟩
    rintro rfl c' hc'
    obtain ⟨s', rfl⟩ := List.head?_eq_some_iff.mp hc'
    exact h c' ⟨[], s', rfl⟩
  · rintro ⟨hhead, hs⟩ c' hinfix
    obtain ⟨s', heq⟩ | hinfix := List.infix_cons_iff.mp hinfix
    · obtain ⟨rfl, rfl⟩ := List.cons.inj heq
      exact hhead rfl c' rfl
    · exact hs c' hinfix

theorem substitute_eq (lookup : String → Option String) (ps : List Piece) :
    substitute lookup ps =
      match ps.findSome? (Piece.missing? lookup) with
      | some name => .error name
      | none => .ok (ps.flatMap (Piece.text lookup)) := by
  induction ps with
  | nil => rfl
  | cons p rest ih =>
    have hvalue : p.value lookup =
        match p.missing? lookup with
        | some name => .error name
        | none => .ok (p.text lookup) := by
      cases p with
      | literal s => rfl
      | reference name default =>
        cases hname : lookup (String.ofList name) <;> cases default <;>
          simp [Piece.value, Piece.missing?, Piece.text, hname]
    rw [substitute, hvalue, ih, List.findSome?_cons, List.flatMap_cons]
    cases p.missing? lookup with
    | some name => rfl
    | none => cases rest.findSome? (Piece.missing? lookup) <;> rfl

theorem expand_eq (lookup : String → Option String) (s : String) :
    expand lookup s = meaning lookup (parse s) := by
  rw [expand, meaning, substitute_eq]
  cases (parse s).findSome? (Piece.missing? lookup) <;> rfl

/-! ## Reading one part -/

section

variable {c : Char} {s rest : List Char}

theorem splitDefault_eq_none (h : ¬ [':', '-'] <:+: s) : splitDefault s = none := by
  induction s with
  | nil => rfl
  | cons c s ih =>
    rw [List.infix_cons_iff, not_or] at h
    rw [splitDefault_cons h.1, ih h.2]
    rfl

theorem splitDefault_append (h : ¬ [':', '-'] <:+: s) (default : List Char) :
    splitDefault (s ++ ':' :: '-' :: default) = some (s, default) := by
  induction s with
  | nil => rfl
  | cons c s ih =>
    rw [List.infix_cons_iff, not_or] at h
    have hhead : ¬ [':', '-'] <+: c :: (s ++ ':' :: '-' :: default) := by
      intro hprefix
      cases s with
      | nil => simp at hprefix
      | cons c' s =>
        obtain ⟨tail, htail⟩ := hprefix
        simp only [List.cons_append, List.nil_append, List.cons.injEq] at htail
        obtain ⟨rfl, rfl, -⟩ := htail
        exact h.1 ⟨s, rfl⟩
    rw [List.cons_append, splitDefault_cons hhead, ih h.2]
    rfl

theorem braced_body {name : List Char} {default : Option (List Char)}
    (h : (Piece.reference name default).Proper) :
    braced (Piece.body name default) = .reference name default := by
  obtain ⟨hne, hsplit, -, -⟩ := h
  cases default with
  | none => rw [Piece.body, braced, splitDefault_eq_none hsplit]
  | some d =>
    obtain ⟨c, s, rfl⟩ := List.exists_cons_of_ne_nil hne
    rw [Piece.body, braced, splitDefault_append hsplit]

theorem notMem_body {name : List Char} {default : Option (List Char)}
    (h : (Piece.reference name default).Proper) : '\x7d' ∉ Piece.body name default := by
  obtain ⟨-, -, hname, hdefault⟩ := h
  cases default with
  | none => exact hname
  | some d =>
    have hd := hdefault d rfl
    simp [Piece.body, hname, hd]

theorem pieces_write_reference {name : List Char} {default : Option (List Char)}
    (h : (Piece.reference name default).Proper) (rest : List Char) :
    pieces ((Piece.reference name default).write ++ rest) =
      .reference name default :: pieces rest := by
  have hread := pieces_braced (notMem_body h) rest
  rw [braced_body h] at hread
  simpa [Piece.write] using hread

/-! ## Literal parts -/

theorem Piece.Proper.tail (h : (Piece.literal (c :: s)).Proper) : (Piece.literal s).Proper := by
  obtain ⟨hbrace, hlast⟩ := h
  refine ⟨fun hinfix => hbrace (List.infix_cons hinfix), ?_⟩
  cases s with
  | nil => simp
  | cons c' s => rwa [List.getLast?_cons_cons] at hlast

theorem Piece.Proper.behind_dollar (h : (Piece.literal ('$' :: s)).Proper) :
    ∃ c s', s = c :: s' ∧ c ≠ '\x7b' := by
  obtain ⟨hbrace, hlast⟩ := h
  cases s with
  | nil => simp at hlast
  | cons c s' =>
    refine ⟨c, s', rfl, ?_⟩
    rintro rfl
    exact hbrace ⟨[], s', rfl⟩

theorem hasReference_append (h : (Piece.literal s).Proper) (rest : List Char) :
    hasReference (s ++ rest) = hasReference rest := by
  induction s with
  | nil => rfl
  | cons c s ih =>
    rw [List.cons_append, hasReference, ih h.tail, Bool.or_eq_right_iff_imp]
    intro hopens
    simp only [Bool.and_eq_true, beq_iff_eq] at hopens
    obtain ⟨rfl, hhead⟩ := hopens
    obtain ⟨c', s', rfl, hc'⟩ := h.behind_dollar
    exact absurd (Option.some.inj hhead) hc'

theorem pieces_append (h : (Piece.literal s).Proper) (hbare : BareDollars s) (rest : List Char) :
    pieces (s ++ rest) = s.map (fun c => .literal [c]) ++ pieces rest := by
  induction s with
  | nil => rfl
  | cons c s ih =>
    obtain ⟨hhead, hs⟩ := bareDollars_cons.mp hbare
    rw [List.map_cons, List.cons_append, List.cons_append, ← ih h.tail hs]
    by_cases hc : c = '$'
    · subst hc
      obtain ⟨c', s', rfl, hbrace⟩ := h.behind_dollar
      obtain ⟨hdollar, hname⟩ := hhead rfl c' rfl
      exact pieces_dollar_other hdollar hbrace hname
    · exact pieces_cons_of_ne hc

end

/-! ## Texts that are read as they are written -/

/-- A part as it is read: a literal part character by character. -/
def Piece.read : Piece → List Piece
  | literal s => s.map fun c => .literal [c]
  | reference name default => [.reference name default]

theorem Piece.findSome?_read (lookup : String → Option String) (p : Piece) :
    p.read.findSome? (Piece.missing? lookup) = p.missing? lookup := by
  cases p with
  | literal s => simp [read, missing?, List.findSome?_eq_none_iff]
  | reference name default => simp [read]

theorem Piece.flatMap_read (lookup : String → Option String) (p : Piece) :
    p.read.flatMap (Piece.text lookup) = p.text lookup := by
  cases p with
  | literal s => simp [read, text, List.flatMap_map]
  | reference name default => simp [read]

theorem meaning_read (lookup : String → Option String) (parts : List Piece) :
    meaning lookup (parts.flatMap Piece.read) = meaning lookup parts := by
  have hmissing : (parts.flatMap Piece.read).findSome? (Piece.missing? lookup) =
      parts.findSome? (Piece.missing? lookup) := by
    induction parts with
    | nil => rfl
    | cons p rest ih =>
      rw [List.flatMap_cons, List.findSome?_append, Piece.findSome?_read, ih, List.findSome?_cons]
      cases p.missing? lookup <;> rfl
  have htext : (parts.flatMap Piece.read).flatMap (Piece.text lookup) =
      parts.flatMap (Piece.text lookup) := by
    simp only [List.flatMap_assoc, Piece.flatMap_read]
  rw [meaning, meaning, hmissing, htext]

theorem pieces_written {parts : List Piece} (h : ∀ p ∈ parts, p.Proper)
    (hbare : ∀ s, .literal s ∈ parts → BareDollars s) :
    pieces (written parts) = parts.flatMap Piece.read := by
  induction parts with
  | nil => exact pieces_nil
  | cons p rest ih =>
    obtain ⟨hp, hrest⟩ := List.forall_mem_cons.mp h
    have htail := ih hrest fun s hs => hbare s (List.mem_cons_of_mem p hs)
    rw [List.flatMap_cons, ← htail]
    cases p with
    | literal s => exact pieces_append hp (hbare s List.mem_cons_self) _
    | reference name default => exact pieces_write_reference hp _

theorem hasReference_written {parts : List Piece} (h : ∀ p ∈ parts, p.Proper) :
    hasReference (written parts) = parts.any Piece.isReference := by
  induction parts with
  | nil => rfl
  | cons p rest ih =>
    obtain ⟨hp, hrest⟩ := List.forall_mem_cons.mp h
    rw [written, List.flatMap_cons, List.any_cons, ← ih hrest]
    cases p with
    | literal s => exact hasReference_append hp _
    | reference name default => rfl

theorem parse_written {parts : List Piece} (h : ∀ p ∈ parts, p.Proper) :
    parse (String.ofList (written parts)) =
      if parts.any Piece.isReference then pieces (written parts)
      else [.literal (written parts)] := by
  rw [parse, String.toList_ofList, hasReference_written h]

theorem meaning_literals (lookup : String → Option String) {parts : List Piece}
    (h : ∀ p ∈ parts, p.isReference = false) :
    meaning lookup parts = .ok (String.ofList (written parts)) := by
  have hliteral : ∀ p ∈ parts, p.missing? lookup = none ∧ p.text lookup = p.write := by
    intro p hp
    cases p with
    | literal s => exact ⟨rfl, rfl⟩
    | reference name default => cases h _ hp
  have hmissing : parts.findSome? (Piece.missing? lookup) = none :=
    List.findSome?_eq_none_iff.mpr fun p hp => (hliteral p hp).1
  have htext : parts.flatMap (Piece.text lookup) = written parts :=
    List.flatMap_congr fun p hp => (hliteral p hp).2
  rw [meaning, hmissing, htext]

/-! ## An environment of empty variables -/

/-- What is left of a text if all variables are empty. -/
def emptied (s : List Char) : List Char :=
  (pieces s).flatMap (Piece.text fun _ => some "")

section

variable {c : Char} {s rest : List Char}

theorem emptied_cons_of_ne (h : c ≠ '$') : emptied (c :: rest) = c :: emptied rest := by
  rw [emptied, pieces_cons_of_ne h]
  rfl

theorem emptied_dollar_other (hdollar : c ≠ '$') (hbrace : c ≠ '\x7b')
    (h : isNameChar c = false) : emptied ('$' :: c :: rest) = '$' :: emptied (c :: rest) := by
  rw [emptied, pieces_dollar_other hdollar hbrace h]
  rfl

theorem length_emptied_dropWhile_le (s : List Char) :
    (emptied (s.dropWhile isNameChar)).length ≤ (emptied s).length := by
  induction s with
  | nil => exact Nat.le_refl _
  | cons c s ih =>
    rw [List.dropWhile_cons]
    split
    · rename_i hname
      have hc : c ≠ '$' := ne_of_isNameChar (by simp) hname
      rw [emptied_cons_of_ne hc, List.length_cons]
      omega
    · exact Nat.le_refl _

/-- A `$` in front of another one or of a name leaves at most one of the two characters. -/
theorem length_emptied_dollar_le (h : c = '$' ∨ isNameChar c = true) (rest : List Char) :
    (emptied ('$' :: c :: rest)).length ≤ 1 + (emptied rest).length := by
  obtain rfl | hname := h
  · rw [emptied, pieces_dollar (by decide), if_pos rfl, List.flatMap_cons, List.length_append]
    exact Nat.le_refl _
  · have hdrop := length_emptied_dropWhile_le rest
    have hread : emptied ('$' :: c :: rest) = emptied (rest.dropWhile isNameChar) := by
      rw [emptied, pieces_dollar_name hname]
      rfl
    rw [hread]
    omega

theorem length_emptied (h : (Piece.literal s).Proper) (rest : List Char) :
    (emptied (s ++ rest)).length ≤ s.length + (emptied rest).length ∧
      (¬ BareDollars s → (emptied (s ++ rest)).length < s.length + (emptied rest).length) := by
  -- on the length, as a `$` may take the character behind it along
  induction hn : s.length using Nat.strongRecOn generalizing s with
  | ind n ih =>
    subst hn
    cases s with
    | nil => exact ⟨by simp, fun hdollar => absurd bareDollars_nil hdollar⟩
    | cons c s =>
      obtain ⟨hle, hlt⟩ := ih s.length (Nat.lt_succ_self _) h.tail rfl
      -- a character that is read for itself
      have hkept (hread : emptied (c :: (s ++ rest)) = c :: emptied (s ++ rest))
          (hhead : c = '$' → ∀ c' ∈ s.head?, c' ≠ '$' ∧ isNameChar c' = false) :
          (emptied (c :: s ++ rest)).length ≤ (c :: s).length + (emptied rest).length ∧
            (¬ BareDollars (c :: s) →
              (emptied (c :: s ++ rest)).length < (c :: s).length + (emptied rest).length) := by
        rw [List.cons_append, hread, List.length_cons, List.length_cons]
        refine ⟨by omega, fun hdollar => ?_⟩
        have := hlt fun hs => hdollar (bareDollars_cons.mpr ⟨hhead, hs⟩)
        omega
      by_cases hc : c = '$'
      · subst hc
        obtain ⟨c', s', rfl, hbrace⟩ := h.behind_dollar
        by_cases htaken : c' = '$' ∨ isNameChar c' = true
        · have hrest := (ih s'.length (by simp only [List.length_cons]; omega) h.tail.tail rfl).1
          have hdollar := length_emptied_dollar_le htaken (s' ++ rest)
          simp only [List.cons_append, List.length_cons]
          omega
        · rw [not_or, Bool.not_eq_true] at htaken
          refine hkept (emptied_dollar_other htaken.1 hbrace htaken.2) ?_
          rintro - _ ⟨⟩
          exact htaken
      · exact hkept (emptied_cons_of_ne hc) fun hdollar => absurd hdollar hc

end

theorem length_emptied_written {parts : List Piece} (h : ∀ p ∈ parts, p.Proper) :
    (emptied (written parts)).length ≤ (parts.flatMap (Piece.text fun _ => some "")).length ∧
      ∀ s, .literal s ∈ parts → ¬ BareDollars s → (emptied (written parts)).length <
        (parts.flatMap (Piece.text fun _ => some "")).length := by
  induction parts with
  | nil =>
    refine ⟨?_, fun s hs => absurd hs List.not_mem_nil⟩
    simp [written, emptied, pieces_nil]
  | cons p rest ih =>
    obtain ⟨hp, hrest⟩ := List.forall_mem_cons.mp h
    obtain ⟨hle, hlt⟩ := ih hrest
    rw [List.flatMap_cons, List.length_append, written, List.flatMap_cons, ← written]
    cases p with
    | literal s =>
      obtain ⟨hliteral, hloses⟩ := length_emptied hp (written rest)
      simp only [Piece.write, Piece.text]
      refine ⟨by omega, fun s' hs' hdollar => ?_⟩
      obtain heq | hmem := List.mem_cons.mp hs'
      · cases heq
        have := hloses hdollar
        omega
      · have := hlt s' hmem hdollar
        omega
    | reference name default =>
      -- a reference stands for nothing, and nothing is left of it
      have hread : emptied ((Piece.reference name default).write ++ written rest) =
          emptied (written rest) := by
        rw [emptied, pieces_write_reference hp]
        rfl
      rw [hread]
      refine ⟨by omega, fun s' hs' hdollar => ?_⟩
      obtain heq | hmem := List.mem_cons.mp hs'
      · cases heq
      · have := hlt s' hmem hdollar
        omega

/-! ## Texts that stand for what they are meant to -/

theorem meaning_empty (ps : List Piece) :
    meaning (fun _ => some "") ps =
      .ok (String.ofList (ps.flatMap (Piece.text fun _ => some ""))) := by
  have hmissing : ps.findSome? (Piece.missing? fun _ => some "") = none := by
    rw [List.findSome?_eq_none_iff]
    intro p _
    cases p with
    | literal s => rfl
    | reference name default => cases default <;> rfl
  rw [meaning, hmissing]

theorem expand_written_iff {parts : List Piece} (h : ∀ p ∈ parts, p.Proper) :
    (∀ lookup, expand lookup (String.ofList (written parts)) = meaning lookup parts) ↔
      (∀ p ∈ parts, p.isReference = false) ∨ ∀ s, .literal s ∈ parts → BareDollars s := by
  constructor
  · intro hmeant
    by_cases hany : parts.any Piece.isReference = true
    · refine .inr fun s hs => Classical.byContradiction fun hdollar => ?_
      -- the loss shows where all variables are set and empty
      have hempty := hmeant fun _ => some ""
      rw [expand_eq, parse_written h, if_pos hany, meaning_empty, meaning_empty, Except.ok.injEq,
        String.ofList_inj] at hempty
      have hless := (length_emptied_written h).2 s hs hdollar
      rw [emptied, hempty] at hless
      exact Nat.lt_irrefl _ hless
    · exact .inl (by simpa using hany)
  · intro hplain lookup
    rw [expand_eq, parse_written h]
    by_cases hany : parts.any Piece.isReference = true
    · have hbare : ∀ s, .literal s ∈ parts → BareDollars s :=
        hplain.resolve_left (by simpa using hany)
      rw [if_pos hany, pieces_written h hbare, meaning_read]
    · have hnone : ∀ p ∈ parts, p.isReference = false := by simpa using hany
      rw [if_neg hany, meaning_literals lookup hnone, meaning_literals lookup]
      · simp [written, Piece.write]
      · intro p hp
        rw [List.mem_singleton.mp hp]
        rfl

/-- What becomes of a setting whose text stands for this. -/
def settled (field : String) : Except String String → Except UnsetVariable (Option String)
  | .ok s => .ok (some s)
  | .error name => .error ⟨field, name⟩

theorem settled_inj {field : String} {x y : Except String String}
    (h : settled field x = settled field y) : x = y := by
  cases x <;> cases y <;> simp_all [settled]

end Expansion

open Expansion

theorem ConfigFile.expandField_some (lookup : String → Option String) (field s : String) :
    expandField lookup field (some s) = settled field (Expansion.expand lookup s) := by
  rw [expandField]
  cases Expansion.expand lookup s <;> rfl

/-- A setting made of proper parts is, in every environment, the same text with nothing but its
references replaced, or an error for the first variable that is needed and not set, just if it has
no references or no `$` in a literal part of it stands in front of another one or of a name. -/
theorem only_references_are_replaced_iff {parts : List Piece} (hparts : ∀ p ∈ parts, p.Proper) :
    (∀ lookup field,
      ConfigFile.expandField lookup field (some (String.ofList (written parts))) =
        settled field (meaning lookup parts)) ↔
      (∀ p ∈ parts, p.isReference = false) ∨ ∀ s, .literal s ∈ parts → BareDollars s := by
  rw [← expand_written_iff hparts]
  constructor
  · intro h lookup
    have hfield := h lookup "output.dir"
    rw [ConfigFile.expandField_some] at hfield
    exact settled_inj hfield
  · intro h lookup field
    rw [ConfigFile.expandField_some, h lookup]

theorem dollar_beside_slash_stays :
    ConfigFile.expandField (fun _ => none) "output.dir"
        (some "site-$/$\x7bSTAGE:-beta\x7d") = .ok (some "site-$/beta") := by
  let parts : List Piece :=
    [.literal "site-$/".toList, .reference "STAGE".toList (some "beta".toList)]
  have hproper : ∀ p ∈ parts, p.Proper := by
    simp [parts, Piece.Proper, List.infix_cons_iff]
  have hbare : ∀ s, .literal s ∈ parts → BareDollars s := by
    intro s hs
    obtain rfl : s = "site-$/".toList := by simpa [parts] using hs
    simp [bareDollars_cons, bareDollars_nil, isNameChar_mark]
  have hwritten : String.ofList (written parts) = "site-$/$\x7bSTAGE:-beta\x7d" := by decide
  have hmeaning : meaning (fun _ => none) parts = .ok "site-$/beta" := by decide
  have h := (only_references_are_replaced_iff hproper).mpr (.inr hbare) (fun _ => none)
    "output.dir"
  rw [hwritten, hmeaning] at h
  exact h

/-- A `$` in front of a name is read with it, although it has no braces. -/
theorem dollar_beside_reference_is_read :
    ¬ ∀ parts : List Piece, (∀ p ∈ parts, p.Proper) → ∀ lookup field,
      ConfigFile.expandField lookup field (some (String.ofList (written parts))) =
        settled field (meaning lookup parts) := by
  let parts : List Piece := [.literal "out/$build/".toList, .reference "STAGE".toList none]
  let lookup (name : String) : Option String := if name = "STAGE" then some "beta" else none
  intro h
  have hproper : ∀ p ∈ parts, p.Proper := by
    simp [parts, Piece.Proper, List.infix_cons_iff]
  have hmeaning : meaning lookup parts = .ok "out/$build/beta" := by decide
  have hread : pieces (written parts) = "out/".toList.map (fun c => .literal [c]) ++
      .reference ('b' :: "uild/$\x7bSTAGE\x7d".toList.takeWhile isNameChar) none ::
        pieces ("uild/$\x7bSTAGE\x7d".toList.dropWhile isNameChar) := by
    have hwritten : written parts = "out/".toList ++ '$' :: 'b' :: "uild/$\x7bSTAGE\x7d".toList := by
      decide
    have hfront : (Piece.literal "out/".toList).Proper := by
      simp [Piece.Proper, List.infix_cons_iff]
    have hbare : BareDollars "out/".toList := by simp [bareDollars_cons, bareDollars_nil]
    rw [hwritten, pieces_append hfront hbare, pieces_dollar_name (by decide +kernel)]
  have hname : 'b' :: "uild/$\x7bSTAGE\x7d".toList.takeWhile isNameChar = "build".toList := by
    decide +kernel
  have hexpand : expand lookup (String.ofList (written parts)) = .error "build" := by
    have hany : parts.any Piece.isReference = true := rfl
    rw [expand_eq, parse_written hproper, if_pos hany, hread, hname]
    rfl
  have hfield := h parts hproper lookup "output.dir"
  rw [ConfigFile.expandField_some, hexpand, hmeaning] at hfield
  cases hfield

end Folio
