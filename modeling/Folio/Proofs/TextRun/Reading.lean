import Folio.Block
import Folio.Proofs.TextRun.Written
import Mathlib.Data.List.Forall2

/-!
# Folio.Proofs.TextRun.Reading

What is read of a value as runs. Any array of arrays is a list of runs, one for each element;
whatever else is malformed costs markers and never a text.

* `Style.ReadFrom`, `TextRun.ReadFrom`: what a marker and a run keep of the value that they are
  read from.
* `Style.codeOfJson_notMem`: only a string spells the code of a known marker.
* `TextRun.listOfJson?_eq_some_iff`: which values are lists of runs, and of which runs.
* `Block.firstText?_of_runs?`: the look-up of the first text of a property goes by the same text.
* `reading_keeps_texts`: all of it, for every value and for every property of a block.
-/

namespace Folio

/-! ## Texts of values -/

namespace Decimal

theorem two_le_length_positional {digits : List Char} (h : digits ≠ []) (point : Int) :
    2 ≤ (positional true digits point).length := by
  have hdigits : 0 < digits.length := List.length_pos_iff.mpr h
  unfold positional
  split
  · simp
  · split
    · simp only [List.length_append, if_pos, List.length_cons]
      omega
    · simp only [List.length_append, List.length_take, List.length_cons, List.length_drop]
      omega

theorem two_le_length_scientific (digits : List Char) (point : Int) :
    2 ≤ (scientific digits point).length := by
  simp only [scientific, List.length_append, List.length_cons]
  omega

end Decimal

namespace Json

theorem two_le_length_float (x : Float) : 2 ≤ (Number.float x).write.length := by
  have hbody : 2 ≤ (if x == 0 then (if numberStyle.keepPoint then ['0', '.', '0'] else ['0'])
      else ((Binary.ofFloat x).shortest numberStyle.tie).write numberStyle).length := by
    split
    · decide
    · unfold Decimal.write
      dsimp only
      split
      · exact Decimal.two_le_length_positional Nat.toDigits_ne_nil _
      · exact Decimal.two_le_length_scientific _ _
  rw [Number.write, FloatStyle.write]
  split
  · decide
  · split
    · split <;> decide
    · rw [String.toList_ofList, List.length_append]
      exact Nat.le_trans hbody (Nat.le_add_left _ _)

theorem isDigit_of_write_int {n : Int} {c : Char} (h : (Number.int n).write = [c]) :
    c.isDigit = true := by
  cases n with
  | ofNat n =>
    have hdigits : Nat.toDigits 10 n = [c] := by
      rw [← Nat.toList_repr]
      exact h
    exact Nat.isDigit_of_mem_toDigits (by decide) (by decide) (hdigits ▸ List.mem_singleton_self c)
  | negSucc n =>
    have hsign : '-' :: Nat.toDigits 10 (n + 1) = [c] := by
      rw [← Nat.toList_repr, ← h]
      exact (String.toList_append (s := "-")).symm
    exact absurd (List.cons.inj hsign).2 Nat.toDigits_ne_nil

theorem compactElements_ne_nil (vs : List Json) : compactElements vs ≠ [] := by
  cases vs <;> simp [compactElements]

/-- But for strings, a text of one character is a digit. -/
theorem isDigit_of_compactChars {v : Json} (hv : v.string? = none) {c : Char}
    (h : v.compactChars = [c]) : c.isDigit = true := by
  cases v with
  | null => simp [compactChars] at h
  | bool b => cases b <;> simp [compactChars] at h
  | number n =>
    rw [compactChars] at h
    cases n with
    | int n => exact isDigit_of_write_int h
    | float x =>
      have hlength := two_le_length_float x
      rw [h] at hlength
      simp at hlength
  | string s => cases hv
  | array vs =>
    cases vs with
    | nil => simp [compactChars] at h
    | cons v rest => simp [compactChars, compactElements_ne_nil] at h
  | object ms =>
    cases ms with
    | nil => simp [compactChars] at h
    | cons m rest => simp [compactChars, quote] at h

end Json

/-! ## Markers -/

namespace Style

/-- What a marker keeps of the value that it is read from: a known marker is an array with the code
of the marker at its head, and any other value is an unknown marker. -/
inductive ReadFrom : Json → Style → Prop where
  | known {code : String} {rest : List Json} {style : Style} :
      code ∈ knownCodes → style.shortCode = code → (∀ c, style ≠ .unknown c) →
      ReadFrom (.array (.string code :: rest)) style
  | unknown {v : Json} {c : String} :
      (∀ code ∈ knownCodes, ∀ rest, v ≠ .array (.string code :: rest)) → ReadFrom v (.unknown c)

theorem shortCode_ofCode (c : String) (payload : Option Json) :
    (ofCode c payload).shortCode = c := by
  unfold ofCode
  split <;> rfl

theorem ofCode_of_notMem {c : String} (h : c ∉ knownCodes) (payload : Option Json) :
    ofCode c payload = unknown c := by
  unfold ofCode
  split
  case h_12 => rfl
  all_goals exact absurd (by decide) h

theorem ofCode_ne_unknown {c : String} (h : c ∈ knownCodes) (payload : Option Json) (d : String) :
    ofCode c payload ≠ unknown d := by
  unfold ofCode
  split
  case h_12 => simp_all [knownCodes]
  all_goals simp

/-- Only a string spells the code of a known marker. -/
theorem codeOfJson_notMem {v : Json} (hv : v.string? = none) : codeOfJson v ∉ knownCodes := by
  have hletters : ∀ code ∈ knownCodes, ∃ c, code.toList = [c] ∧ c.isDigit = false := by
    simp [knownCodes]
  intro hmem
  obtain ⟨c, hcode, hletter⟩ := hletters _ hmem
  have hcompact : codeOfJson v = v.compact := by
    cases v with
    | string s => cases hv
    | _ => rfl
  rw [hcompact, Json.compact, String.toList_ofList] at hcode
  rw [Json.isDigit_of_compactChars hv hcode] at hletter
  cases hletter

theorem readFrom_ofJson (v : Json) : ReadFrom v (ofJson v) := by
  cases v with
  | array parts =>
    cases parts with
    | nil => exact .unknown (by simp)
    | cons head rest =>
      cases head with
      | string code =>
        by_cases hcode : code ∈ knownCodes
        · exact .known hcode (shortCode_ofCode _ _) (ofCode_ne_unknown hcode _)
        · rw [ofJson, codeOfJson, ofCode_of_notMem hcode]
          refine .unknown fun known hknown rest' heq => hcode ?_
          obtain ⟨rfl, -⟩ : code = known ∧ rest = rest' := by simpa using heq
          exact hknown
      | _ =>
        rw [ofJson, ofCode_of_notMem (codeOfJson_notMem rfl)]
        exact .unknown (by simp)
  | _ => exact .unknown (by simp)

end Style

/-! ## Runs -/

namespace TextRun

/-- What a run keeps of the elements that it is read from: the text if the first of them is one, and
a marker for each entry if the second one is an array. -/
structure ReadFrom (parts : List Json) (r : TextRun) : Prop where
  text_of_string : ∀ s, parts[0]? = some (.string s) → r.text = s
  text_of_other : (∀ s, parts[0]? ≠ some (.string s)) → r.text = ""
  styles_of_array : ∀ markers, parts[1]? = some (.array markers) →
    List.Forall₂ Style.ReadFrom markers r.styles
  styles_of_other : (∀ markers, parts[1]? ≠ some (.array markers)) → r.styles = []

theorem text_ofElements (parts : List Json) :
    (ofElements parts).text = (parts.head?.bind Json.string?).getD "" := by
  match parts with
  | [] => rfl
  | [_] => rfl
  | _ :: _ :: _ => rfl

theorem styles_ofElements (parts : List Json) :
    (ofElements parts).styles = (parts[1]?.map Style.listOfJson).getD [] := by
  match parts with
  | [] => rfl
  | [_] => rfl
  | _ :: _ :: _ => rfl

theorem readFrom_ofElements (parts : List Json) : ReadFrom parts (ofElements parts) where
  text_of_string := by
    intro s hs
    rw [text_ofElements, List.head?_eq_getElem?, hs]
    rfl
  text_of_other := by
    intro hother
    rw [text_ofElements, List.head?_eq_getElem?]
    cases hfirst : parts[0]? with
    | none => rfl
    | some v =>
      cases v with
      | string s => exact absurd hfirst (hother s)
      | _ => rfl
  styles_of_array := by
    intro markers hmarkers
    rw [styles_ofElements, hmarkers, Option.map_some, Option.getD_some, Style.listOfJson,
      List.forall₂_map_right_iff, List.forall₂_same]
    exact fun v _ => Style.readFrom_ofJson v
  styles_of_other := by
    intro hother
    rw [styles_ofElements]
    cases hsecond : parts[1]? with
    | none => rfl
    | some v =>
      cases v with
      | array markers => exact absurd hsecond (hother markers)
      | _ => rfl

theorem mapM_ofJson?_eq_some_iff {vs : List Json} {rs : List TextRun} :
    vs.mapM ofJson? = some rs ↔
      ∃ elements : List (List Json), vs = elements.map .array ∧ rs = elements.map ofElements := by
  induction vs generalizing rs with
  | nil => simp [eq_comm]
  | cons v rest ih =>
    constructor
    · intro h
      cases v with
      | array parts =>
        have hbind : (rest.mapM ofJson?).bind (fun rs' => some (ofElements parts :: rs')) =
            some rs := by
          simpa [ofJson?, Json.elements?] using h
        obtain ⟨rs', hrest, hrs⟩ := Option.bind_eq_some_iff.mp hbind
        obtain ⟨elements, rfl, rfl⟩ := ih.mp hrest
        exact ⟨parts :: elements, rfl, (Option.some.inj hrs).symm⟩
      | _ => simp [ofJson?, Json.elements?] at h
    · rintro ⟨elements, helements, rfl⟩
      cases elements with
      | nil => cases helements
      | cons parts elements =>
        obtain ⟨rfl, hrest⟩ := List.cons.inj helements
        rw [List.mapM_cons, ih.mpr ⟨elements, hrest, rfl⟩]
        rfl

/-- Exactly the arrays of arrays are lists of runs. -/
theorem listOfJson?_eq_some_iff {v : Json} {rs : List TextRun} :
    listOfJson? v = some rs ↔
      ∃ elements : List (List Json), v = .array (elements.map .array) ∧
        rs = elements.map ofElements := by
  cases v with
  | array vs =>
    rw [listOfJson?, Json.list?, mapM_ofJson?_eq_some_iff]
    simp
  | _ => simp [listOfJson?, Json.list?]

theorem exists_listOfJson?_iff {v : Json} :
    (∃ rs, listOfJson? v = some rs) ↔
      ∃ vs, v = .array vs ∧ ∀ e ∈ vs, ∃ parts, e = .array parts := by
  constructor
  · rintro ⟨rs, hrs⟩
    obtain ⟨elements, rfl, -⟩ := listOfJson?_eq_some_iff.mp hrs
    refine ⟨_, rfl, fun e he => ?_⟩
    obtain ⟨parts, -, rfl⟩ := List.mem_map.mp he
    exact ⟨parts, rfl⟩
  · rintro ⟨vs, rfl, hvs⟩
    choose! parts hparts using hvs
    have helements : (vs.map parts).map .array = vs := by
      rw [List.map_map]
      exact map_eq_self_iff.mpr fun e he => (hparts e he).symm
    exact ⟨_, listOfJson?_eq_some_iff.mpr ⟨vs.map parts, by rw [helements], rfl⟩⟩

end TextRun

/-- Where a property is a list of runs, the look-up of its first text goes by the first element of
its first element. -/
theorem Block.firstText?_of_runs? {b : Block} {name : String} {rs : List TextRun}
    (h : b.runs? name = some rs) :
    ∃ elements : List (List Json), rs = elements.map TextRun.ofElements ∧
      b.firstText? name = elements.head?.bind fun parts => parts.head?.bind Json.string? := by
  obtain ⟨v, hproperty, hruns⟩ := Option.bind_eq_some_iff.mp h
  obtain ⟨elements, rfl, rfl⟩ := TextRun.listOfJson?_eq_some_iff.mp hruns
  refine ⟨elements, rfl, ?_⟩
  rw [firstText?, hproperty]
  cases elements with
  | nil => rfl
  | cons parts rest => rfl

open TextRun in
/-- A value is read as runs exactly if it is an array of arrays. There is one run for each element,
with the text at its head and a marker for each entry of the list that comes second, whatever that
list holds. Where a property of a block is read as runs, the look-up of its first text finds the
text of the first run; it finds nothing only if there is no run or the first one is empty. -/
theorem reading_keeps_texts (v : Json) (b : Block) (name : String) :
    ((∃ rs, listOfJson? v = some rs) ↔
        ∃ vs, v = .array vs ∧ ∀ e ∈ vs, ∃ parts, e = .array parts) ∧
      (∀ rs, listOfJson? v = some rs →
        ∃ elements : List (List Json), v = .array (elements.map .array) ∧
          List.Forall₂ ReadFrom elements rs) ∧
      ∀ rs, b.runs? name = some rs →
        (∀ t, b.firstText? name = some t → ∃ r rest, rs = r :: rest ∧ r.text = t) ∧
          (b.firstText? name = none → rs = [] ∨ ∃ r rest, rs = r :: rest ∧ r.text = "") := by
  refine ⟨exists_listOfJson?_iff, ?_, ?_⟩
  · intro rs hrs
    obtain ⟨elements, rfl, rfl⟩ := listOfJson?_eq_some_iff.mp hrs
    refine ⟨elements, rfl, ?_⟩
    rw [List.forall₂_map_right_iff, List.forall₂_same]
    exact fun parts _ => readFrom_ofElements parts
  · intro rs hrs
    obtain ⟨elements, rfl, hfirst⟩ := Block.firstText?_of_runs? hrs
    rw [hfirst]
    cases elements with
    | nil => exact ⟨nofun, fun _ => .inl rfl⟩
    | cons parts rest =>
      have htext := text_ofElements parts
      refine ⟨fun t ht => ⟨_, _, rfl, ?_⟩, fun hnone => .inr ⟨_, _, rfl, ?_⟩⟩
      · have hhead : parts.head?.bind Json.string? = some t := ht
        rw [htext, hhead, Option.getD_some]
      · have hhead : parts.head?.bind Json.string? = none := hnone
        rw [htext, hhead, Option.getD_none]

/-- Runs with a marker that is no array, one without a known code, an empty one, a list of markers
that is none, and an element without anything. -/
def damagedText : Json :=
  .array [
    .array [.string "x", .array [.array [.string "b"], .string "i",
      .array [.number (.int 3)], .array []], .null],
    .array [.number (.int 5), .string "b"],
    .array []]

open TextRun in
theorem damagedText_keeps_texts :
    let b : Block := { id := "b1", properties := some [("title", damagedText)] }
    ∃ rs, listOfJson? damagedText = some rs ∧ b.runs? "title" = some rs ∧
      rs.map (·.text) = ["x", "", ""] ∧
      (∃ elements : List (List Json), damagedText = .array (elements.map .array) ∧
        List.Forall₂ ReadFrom elements rs) ∧
      ∃ r rest, rs = r :: rest ∧ r.text = "x" := by
  intro b
  let rs : List TextRun :=
    [⟨"x", [.bold, .unknown "i", .unknown "3", .unknown ""]⟩, {}, {}]
  have hread : listOfJson? damagedText = some rs := by
    decide +kernel
  obtain ⟨-, hruns, hproperty⟩ := reading_keeps_texts damagedText b "title"
  exact ⟨rs, hread, hread, rfl, hruns rs hread, (hproperty rs hread).1 "x" rfl⟩

end Folio
