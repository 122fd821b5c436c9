import Folio.Html.Inline
import Mathlib.Logic.Function.Basic

/-!
# Folio.Proofs.Html.Entities

Escaping and its inverse. Escaped text and escaped attribute values are written by one scheme: the
characters of a table become entities, all others stand for themselves.

* `replaceEntities`: a text with the entities of a table replaced, in one pass from left to right.
* `Escaping`: what a table and a way to write characters have to do with each other.
* `Escaping.faithful`: what every such scheme can be relied on for.
* `escaping_is_faithful`: text, attribute values, and runs without markers.
-/

namespace Folio
namespace Escape

/-- The entities, each with the character that it stands for. -/
def entityTable : List (List Char × Char) :=
  [("&lt;".toList, '<'), ("&gt;".toList, '>'), ("&amp;".toList, '&'), ("&quot;".toList, '"'),
    ("&#x27;".toList, '\''), ("&#x2F;".toList, '/')]

/-- The entities of attribute values. -/
def attrTable : List (List Char × Char) :=
  [("&lt;".toList, '<'), ("&gt;".toList, '>'), ("&amp;".toList, '&'), ("&quot;".toList, '"'),
    ("&#x27;".toList, '\'')]

/-- A text with the entities of a table replaced by their characters. What an entity is replaced by
is not looked at again. -/
def replaceEntities (table : List (List Char × Char)) : List Char → List Char
  | [] => []
  | c :: rest =>
    match table.find? fun e => e.1.isPrefixOf (c :: rest) with
    | some e => e.2 :: replaceEntities table (rest.drop (e.1.length - 1))
    | none => c :: replaceEntities table rest
termination_by cs => cs.length
decreasing_by
  · simp only [List.length_drop, List.length_cons]; omega
  · simp

/-- A way to write characters. Those of a table, the ampersand among them, are written as entities.
No entity goes on as another one, and none holds a character of the table behind its ampersand. -/
structure Escaping where
  table : List (List Char × Char)
  write : Char → List Char
  write_of_mem : ∀ e ∈ table, write e.2 = e.1
  write_of_notMem : ∀ c, (∀ e ∈ table, e.2 ≠ c) → write c = [c]
  ampersand : ∃ e ∈ table, e.2 = '&'
  head : ∀ e ∈ table, e.1.head? = some '&'
  tail : ∀ e ∈ table, ∀ e' ∈ table, e'.2 ∉ e.1.tail
  prefixFree : ∀ e ∈ table, ∀ e' ∈ table, e.1 <+: e'.1 → e = e'

/-- What a way to escape texts can be relied on for: it is undone by replacing the entities, leaves
no active character, writes no other ampersands than those of entities, and goes by parts. -/
structure Faithful (table : List (List Char × Char)) (active : List Char)
    (escape : String → String) : Prop where
  undone : ∀ s, replaceEntities table (escape s).toList = s.toList
  injective : Function.Injective escape
  inert : ∀ s, ∀ c ∈ active, c ∉ (escape s).toList
  ampersands : ∀ s front back, (escape s).toList = front ++ '&' :: back →
    ∃ e ∈ table, e.1 <+: '&' :: back
  append : ∀ s t, escape (s ++ t) = escape s ++ escape t

namespace Escaping

variable (E : Escaping)

/-- A text with each character written in this way. -/
def escape (s : String) : String := String.ofList (s.toList.flatMap E.write)

theorem exists_cons {e : List Char × Char} (he : e ∈ E.table) : ∃ tail, e.1 = '&' :: tail := by
  obtain ⟨entity, c⟩ := e
  have hhead := E.head _ he
  cases entity with
  | nil => cases hhead
  | cons d tail => exact ⟨tail, by simpa using hhead⟩

theorem mem_or_plain (c : Char) :
    (∃ e ∈ E.table, e.2 = c ∧ E.write c = e.1) ∨ c ≠ '&' ∧ E.write c = [c] := by
  by_cases hc : ∃ e ∈ E.table, e.2 = c
  · obtain ⟨e, he, rfl⟩ := hc
    exact .inl ⟨e, he, rfl, E.write_of_mem e he⟩
  · have hnone : ∀ e ∈ E.table, e.2 ≠ c := fun e he heq => hc ⟨e, he, heq⟩
    refine .inr ⟨?_, E.write_of_notMem c hnone⟩
    rintro rfl
    exact hc E.ampersand

/-! ## Replacing entities -/

theorem replaceEntities_entity {e : List Char × Char} (he : e ∈ E.table) (rest : List Char) :
    replaceEntities E.table (e.1 ++ rest) = e.2 :: replaceEntities E.table rest := by
  have hfind : E.table.find? (fun e' => e'.1.isPrefixOf (e.1 ++ rest)) = some e := by
    cases hfirst : E.table.find? fun e' => e'.1.isPrefixOf (e.1 ++ rest) with
    | none =>
      have := List.find?_eq_none.mp hfirst e he
      simp at this
    | some e' =>
      have hmem := List.mem_of_find?_eq_some hfirst
      have hfound : e'.1.isPrefixOf (e.1 ++ rest) = true := by
        simpa using List.find?_some hfirst
      -- both entities stand in front of the text, so one of them is the front of the other
      rcases List.prefix_or_prefix_of_prefix (List.isPrefixOf_iff_prefix.mp hfound)
        (List.prefix_append e.1 rest) with h | h
      · rw [E.prefixFree e' hmem e he h]
      · rw [E.prefixFree e he e' hmem h]
  obtain ⟨tail, htail⟩ := E.exists_cons he
  rw [htail, List.cons_append] at hfind ⊢
  rw [replaceEntities, hfind]
  simp [htail]

theorem replaceEntities_plain {c : Char} (hc : c ≠ '&') (rest : List Char) :
    replaceEntities E.table (c :: rest) = c :: replaceEntities E.table rest := by
  have hfind : E.table.find? (fun e => e.1.isPrefixOf (c :: rest)) = none := by
    refine List.find?_eq_none.mpr fun e he hfound => ?_
    obtain ⟨tail, htail⟩ := E.exists_cons he
    simp [htail, hc.symm] at hfound
  rw [replaceEntities, hfind]

theorem replaceEntities_write (c : Char) (rest : List Char) :
    replaceEntities E.table (E.write c ++ rest) = c :: replaceEntities E.table rest := by
  rcases E.mem_or_plain c with ⟨e, he, rfl, hwrite⟩ | ⟨hc, hwrite⟩
  · rw [hwrite, E.replaceEntities_entity he]
  · rw [hwrite, List.singleton_append, E.replaceEntities_plain hc]

theorem replaceEntities_flatMap (cs rest : List Char) :
    replaceEntities E.table (cs.flatMap E.write ++ rest) =
      cs ++ replaceEntities E.table rest := by
  induction cs with
  | nil => rfl
  | cons c cs ih =>
    rw [List.flatMap_cons, List.append_assoc, E.replaceEntities_write, ih, List.cons_append]

theorem replaceEntities_escape_append (s : String) (rest : List Char) :
    replaceEntities E.table ((E.escape s).toList ++ rest) =
      s.toList ++ replaceEntities E.table rest := by
  rw [escape, String.toList_ofList, E.replaceEntities_flatMap]

theorem replaceEntities_escape (s : String) :
    replaceEntities E.table (E.escape s).toList = s.toList := by
  have hundone := E.replaceEntities_escape_append s []
  rwa [List.append_nil, replaceEntities, List.append_nil] at hundone

/-! ## What is written -/

theorem notMem_write {e : List Char × Char} (he : e ∈ E.table) (hne : e.2 ≠ '&') (c : Char) :
    e.2 ∉ E.write c := by
  intro hmem
  by_cases hc : ∃ e' ∈ E.table, e'.2 = c
  · obtain ⟨e', he', rfl⟩ := hc
    obtain ⟨tail, htail⟩ := E.exists_cons he'
    have hinert := E.tail e' he' e he
    rw [E.write_of_mem e' he', htail] at hmem
    rw [htail] at hinert
    exact (List.mem_cons.mp hmem).elim hne hinert
  · have hnone : ∀ e' ∈ E.table, e'.2 ≠ c := fun e' he' heq => hc ⟨e', he', heq⟩
    rw [E.write_of_notMem c hnone] at hmem
    exact hnone e he (List.mem_singleton.mp hmem)

theorem notMem_escape {e : List Char × Char} (he : e ∈ E.table) (hne : e.2 ≠ '&') (s : String) :
    e.2 ∉ (E.escape s).toList := by
  rw [escape, String.toList_ofList, List.mem_flatMap]
  rintro ⟨c, -, hc⟩
  exact E.notMem_write he hne c hc

/-- An ampersand that is written is the first character of an entity, since behind that character
an entity holds none. -/
theorem exists_entity {cs front back : List Char}
    (h : cs.flatMap E.write = front ++ '&' :: back) : ∃ e ∈ E.table, e.1 <+: '&' :: back := by
  induction cs generalizing front with
  | nil => simp at h
  | cons c cs ih =>
    rw [List.flatMap_cons, List.append_eq_append_iff] at h
    rcases h with ⟨between, -, hrest⟩ | ⟨behind, hwrite, hback⟩
    · exact ih hrest
    · cases behind with
      | nil =>
        have hrest : cs.flatMap E.write = [] ++ '&' :: back := hback.symm
        exact ih hrest
      | cons d behind =>
        obtain ⟨rfl, hbehind⟩ := List.cons.inj hback
        rcases E.mem_or_plain c with ⟨e, he, -, hentity⟩ | ⟨hc, hplain⟩
        · obtain ⟨tail, htail⟩ := E.exists_cons he
          obtain ⟨amp, hamp, hampersand⟩ := E.ampersand
          rw [hentity] at hwrite
          -- at the start of the entity, or inside it, where no ampersand is
          cases front with
          | nil =>
            have hwhole : e.1 = '&' :: behind := hwrite
            exact ⟨e, he, hwhole ▸ hbehind ▸ List.prefix_append _ _⟩
          | cons f front =>
            have hinside := E.tail e he amp hamp
            rw [hampersand, hwrite] at hinside
            simp at hinside
        · rw [hplain, List.singleton_eq_append_iff] at hwrite
          simp [hc.symm] at hwrite

theorem escape_append (s t : String) : E.escape (s ++ t) = E.escape s ++ E.escape t := by
  simp [escape]

theorem escape_injective : Function.Injective E.escape := by
  intro s t h
  have hs := E.replaceEntities_escape s
  rw [h, E.replaceEntities_escape t] at hs
  exact (String.toList_inj.mp hs).symm

theorem faithful {active : List Char}
    (hactive : ∀ c ∈ active, c ≠ '&' ∧ ∃ e ∈ E.table, e.2 = c) :
    Faithful E.table active E.escape where
  undone := E.replaceEntities_escape
  injective := E.escape_injective
  inert := by
    intro s c hc
    obtain ⟨hne, e, he, rfl⟩ := hactive c hc
    exact E.notMem_escape he hne s
  ampersands := by
    intro s front back h
    rw [escape, String.toList_ofList] at h
    exact E.exists_entity h
  append := E.escape_append

/-! ## Texts and attribute values -/

def ofAttr : Escaping where
  table := attrTable
  write := attrChar
  write_of_mem := by decide
  write_of_notMem := by
    intro c hc
    simp only [attrTable, List.forall_mem_cons] at hc
    obtain ⟨hlt, hgt, hamp, hquot, happos, -⟩ := hc
    unfold attrChar
    split
    · exact absurd rfl hlt
    · exact absurd rfl hgt
    · exact absurd rfl hamp
    · exact absurd rfl hquot
    · exact absurd rfl happos
    · rfl
  ampersand := by decide
  head := by decide
  tail := by decide
  prefixFree := by decide

def ofText : Escaping where
  table := entityTable
  write := textChar
  write_of_mem := by decide
  write_of_notMem := by
    intro c hc
    have hslash : c ≠ '/' := (hc ("&#x2F;".toList, '/') (by simp [entityTable])).symm
    rw [textChar, if_neg hslash]
    refine ofAttr.write_of_notMem c fun e he => hc e ?_
    exact List.mem_append_left [("&#x2F;".toList, '/')] he
  ampersand := by decide
  head := by decide
  tail := by decide
  prefixFree := by decide

end Escaping

theorem faithful_text : Faithful entityTable ['<', '>', '/', '"', '\''] text :=
  Escaping.ofText.faithful (by simp [Escaping.ofText, entityTable])

theorem faithful_attr : Faithful attrTable ['<', '>', '"', '\''] attr :=
  Escaping.ofAttr.faithful (by simp [Escaping.ofAttr, attrTable])

theorem text_append (s t : String) : text (s ++ t) = text s ++ text t :=
  Escaping.ofText.escape_append s t

end Escape

/-! ## Runs without markers -/

theorem Inline.html_runs_plain {rs : List TextRun} (h : ∀ r ∈ rs, r.styles = []) :
    (Inline.runs rs).html = Escape.text (plainText rs) := by
  induction rs with
  | nil => rfl
  | cons r rest ih =>
    obtain ⟨hr, hrest⟩ := List.forall_mem_cons.mp h
    have hrun : (Inline.run r).html = Escape.text r.text := by
      rw [Inline.run, hr]
      exact Rendered.html_only _
    have hplain : plainText (r :: rest) = r.text ++ plainText rest := String.join_cons
    have hruns : Inline.runs (r :: rest) = Inline.run r ++ Inline.runs rest := rfl
    rw [hruns, Rendered.html_append, hrun, ih hrest, hplain, Escape.text_append]

/-- Escaping is undone by replacing the entities in one pass, of text as of attribute values, leaves
no active character, and goes by parts; so runs without markers are the escaped text of all. -/
theorem escaping_is_faithful :
    Escape.Faithful Escape.entityTable ['<', '>', '/', '"', '\''] Escape.text ∧
      Escape.Faithful Escape.attrTable ['<', '>', '"', '\''] Escape.attr ∧
      ∀ rs : List TextRun, (∀ r ∈ rs, r.styles = []) →
        (Inline.runs rs).html = Escape.text (plainText rs) :=
  ⟨Escape.faithful_text, Escape.faithful_attr, fun _ => Inline.html_runs_plain⟩

/-- An entity that is cut in two by the end of a run, and one that stands in the text. -/
def cutEntity : List TextRun := [⟨"&l", []⟩, ⟨"t;&amp;</p>", []⟩]

theorem cutEntity_is_escaped :
    (∀ r ∈ cutEntity, r.styles = []) ∧
      (Inline.runs cutEntity).html = "&amp;lt;&amp;amp;&lt;&#x2F;p&gt;" := by
  have hplain : ∀ r ∈ cutEntity, r.styles = [] := by
    simp [cutEntity]
  refine ⟨hplain, ?_⟩
  rw [escaping_is_faithful.2.2 cutEntity hplain]
  decide +kernel

end Folio
