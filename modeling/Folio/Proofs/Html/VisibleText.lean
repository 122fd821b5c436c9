import Folio.Proofs.Html.Entities
import Folio.Proofs.Html.WellFormed

/-!
# Folio.Proofs.Html.VisibleText

What a reader sees of inline markup: the text that is left without the tags, with entities as the
characters that they stand for.

* `Markup.withoutTags`, `Escape.unescape`: tags taken out, entities replaced.
* `Escape.unescape_text_append`: escaping a text is undone.
* `Rendered.Reads`: the text that is left of a piece of markup, whatever stands behind it.
* `Inline.visibleText_runs`: a run shows its text, or what its first mention refers to.
-/

namespace Folio

/-! ## Entities -/

namespace Escape

/-- The entity that a text starts with. -/
def entity? (cs : List Char) : Option (List Char × Char) :=
  entityTable.find? fun e => e.1.isPrefixOf cs

/-- A text with its entities replaced by their characters. -/
def unescape : List Char → List Char
  | [] => []
  | c :: rest =>
    match entity? (c :: rest) with
    | some (e, d) => d :: unescape (rest.drop (e.length - 1))
    | none => c :: unescape rest
termination_by cs => cs.length
decreasing_by
  · simp only [List.length_drop, List.length_cons]; omega
  · simp

@[simp] theorem unescape_nil : unescape [] = [] := by
  rw [unescape]

theorem unescape_eq (cs : List Char) : unescape cs = replaceEntities entityTable cs := by
  fun_induction unescape cs with
  | case1 => rw [replaceEntities]
  | case2 c rest e d hfirst ih =>
    have hfind : entityTable.find? (fun e => e.1.isPrefixOf (c :: rest)) = some (e, d) := hfirst
    rw [replaceEntities, hfind, ih]
  | case3 c rest hfirst ih =>
    have hfind : entityTable.find? (fun e => e.1.isPrefixOf (c :: rest)) = none := hfirst
    rw [replaceEntities, hfind, ih]

theorem unescape_text_append (s : String) (rest : List Char) :
    unescape ((text s).toList ++ rest) = s.toList ++ unescape rest := by
  rw [unescape_eq, unescape_eq]
  exact Escaping.ofText.replaceEntities_escape_append s rest

end Escape

/-! ## Tags -/

namespace Markup

/-- A text without its tags, from a place inside or outside a tag on. A tag goes from `<` to the
next `>`; a `<` with no `>` behind it is text. -/
def withoutTags (inTag : Bool) : List Char → List Char
  | [] => []
  | c :: rest =>
    if inTag then withoutTags (c != '>') rest
    else if c = '<' ∧ '>' ∈ rest then withoutTags true rest
    else c :: withoutTags false rest

/-- What a reader sees of markup. -/
def visibleText (html : String) : String :=
  String.ofList (Escape.unescape (withoutTags false html.toList))

theorem withoutTags_append {cs : List Char} (h : '<' ∉ cs) (rest : List Char) :
    withoutTags false (cs ++ rest) = cs ++ withoutTags false rest := by
  induction cs with
  | nil => rfl
  | cons c cs ih =>
    obtain ⟨hc, hcs⟩ : c ≠ '<' ∧ '<' ∉ cs := by simpa [eq_comm] using h
    rw [List.cons_append, withoutTags, if_neg Bool.false_ne_true, if_neg (mt And.left hc), ih hcs,
      List.cons_append]

theorem withoutTags_inTag {cs : List Char} (h : '>' ∉ cs) (rest : List Char) :
    withoutTags true (cs ++ '>' :: rest) = withoutTags false rest := by
  induction cs with
  | nil => rfl
  | cons c cs ih =>
    obtain ⟨hc, hcs⟩ : c ≠ '>' ∧ '>' ∉ cs := by simpa [eq_comm] using h
    rw [List.cons_append, withoutTags, if_pos rfl, bne_iff_ne.mpr hc, ih hcs]

theorem withoutTags_tag {cs : List Char} (h : '>' ∉ cs) (rest : List Char) :
    withoutTags false ('<' :: (cs ++ '>' :: rest)) = withoutTags false rest := by
  have hclosed : '>' ∈ cs ++ '>' :: rest := by simp
  rw [withoutTags, if_neg Bool.false_ne_true, if_pos ⟨rfl, hclosed⟩, withoutTags_inTag h]

end Markup

theorem gt_notMem_attr (v : String) : '>' ∉ (Escape.attr v).toList :=
  Escape.faithful_attr.inert v '>' (by simp)

namespace Attribute

theorem gt_notMem_value {name : String} (hname : '>' ∉ name.toList) (v : String) :
    '>' ∉ (value name v).write.toList := by
  simp [write, hname, gt_notMem_attr v]

theorem gt_notMem_className (names : String) : '>' ∉ (className names).write.toList :=
  gt_notMem_value (by decide) names

end Attribute

/-! ## Inline markup -/

namespace Rendered

open Markup

/-- What is left of the markup without its tags, whatever stands behind it. -/
def Reads (r : Rendered) (text : List Char) : Prop :=
  ∀ rest, withoutTags false (r.html.toList ++ rest) = text ++ withoutTags false rest

variable {r a b : Rendered} {s t : List Char}

theorem reads_empty : empty.Reads [] := fun _ => rfl

theorem reads_text (s : String) : (text s).Reads (Escape.text s).toList := by
  intro rest
  rw [text, html_only, write]
  exact withoutTags_append (lt_notMem_text s) rest

theorem Reads.append (ha : a.Reads s) (hb : b.Reads t) : (a ++ b).Reads (s ++ t) := by
  intro rest
  rw [html_append, String.toList_append, List.append_assoc, ha, hb, List.append_assoc]

theorem Reads.element {tag : String} {attributes : List Attribute} (htag : '>' ∉ tag.toList)
    (hattributes : ∀ a ∈ attributes, '>' ∉ a.write.toList) (h : r.Reads s) :
    (r.element tag attributes).Reads s := by
  intro rest
  have hstart : '>' ∉ tag.toList ++ attributes.flatMap fun a => a.write.toList := by
    simpa [htag] using hattributes
  have hstop : '>' ∉ '/' :: tag.toList := by
    simpa using htag
  have htext : (r.element tag attributes).html.toList ++ rest =
      '<' :: ((tag.toList ++ attributes.flatMap fun a => a.write.toList) ++ '>' ::
        (r.html.toList ++ '<' :: (('/' :: tag.toList) ++ '>' :: rest))) := by
    simp [toList_startTag, toList_endTag]
  rw [htext, withoutTags_tag hstart, h, withoutTags_tag hstop]

theorem Reads.visibleText {s : String} (h : r.Reads (Escape.text s).toList) :
    Markup.visibleText r.html = s := by
  have hleft := h []
  rw [List.append_nil] at hleft
  rw [Markup.visibleText, hleft, Escape.unescape_text_append]
  simp [withoutTags]

end Rendered

/-- What a marker shows in place of the text, if it is a mention. -/
def Style.mention? : Style → Option String
  | userMention id => some ("@user_id:" ++ id)
  | pageMention id => some ("@page_id:" ++ id)
  | date d => some ("@" ++ d.startDate)
  | _ => none

/-- What a run shows: what its first mention refers to, and its text if it has none. -/
def TextRun.visibleText (r : TextRun) : String :=
  (r.styles.findSome? Style.mention?).getD r.text

namespace Inline

open Rendered

theorem reads_mention (inner : Rendered) (label : String) :
    (inner.replace (mention label)).Reads (Escape.text label).toList := by
  have hspan : (element "span" [.className "color-mention"] (text label)).Reads
      (Escape.text label).toList :=
    (reads_text label).element (by decide) (by simp [Attribute.gt_notMem_className])
  exact hspan

/-- A mention shows itself, every other marker what is inside. -/
theorem reads_applyStyle (style : Style) {inner : Rendered} {s : String}
    (h : inner.Reads (Escape.text s).toList) :
    (applyStyle style inner).Reads (Escape.text (style.mention?.getD s)).toList := by
  cases style with
  | bold => exact h.element (by decide) (by simp)
  | italic => exact h.element (by decide) (by simp)
  | strike => exact h.element (by decide) (by simp)
  | underline => exact h.element (by decide) (by simp)
  | code => exact h.element (by decide) (by simp)
  | link target => exact h.element (by decide) (by simp +decide [Attribute.gt_notMem_value])
  | color token => exact h.element (by decide) (by simp [Attribute.gt_notMem_className])
  | comment id => exact h.element (by decide) (by simp [Attribute.gt_notMem_className])
  | userMention id => exact reads_mention inner _
  | pageMention id => exact reads_mention inner _
  | date d => exact reads_mention inner _
  | unknown code => exact h

/-- Markers are applied from the last to the first, so the first mention has the last word. -/
theorem reads_applyStyles (styles : List Style) {inner : Rendered} {s : String}
    (h : inner.Reads (Escape.text s).toList) :
    (applyStyles inner styles).Reads
      (Escape.text ((styles.findSome? Style.mention?).getD s)).toList := by
  induction styles with
  | nil => exact h
  | cons style rest ih =>
    have hstyle := reads_applyStyle style ih
    rw [List.findSome?_cons]
    cases hmention : style.mention? with
    | none => rwa [hmention] at hstyle
    | some label => rwa [hmention] at hstyle

theorem reads_run (r : TextRun) : (run r).Reads (Escape.text r.visibleText).toList :=
  reads_applyStyles r.styles (reads_text r.text)

theorem reads_runs (rs : List TextRun) :
    (runs rs).Reads (Escape.text (String.join (rs.map TextRun.visibleText))).toList := by
  induction rs with
  | nil => exact reads_empty
  | cons r rest ih =>
    have hboth := (reads_run r).append ih
    rw [← String.toList_append, ← Escape.text_append, ← String.join_cons, ← List.map_cons] at hboth
    exact hboth

end Inline

theorem TextRun.visibleText_of_plain {r : TextRun} (h : ∀ style ∈ r.styles, style.mention? = none) :
    r.visibleText = r.text := by
  rw [visibleText, List.findSome?_eq_none_iff.mpr h, Option.getD_none]

/-- Of a text with its markers a reader sees the texts of its runs, and of a run with mentions what
the first of them refers to, whatever markers stand around it. -/
theorem visibleText_runs (rs : List TextRun) :
    Markup.visibleText (Inline.runs rs).html = String.join (rs.map TextRun.visibleText) ∧
      ((∀ r ∈ rs, ∀ style ∈ r.styles, style.mention? = none) →
        Markup.visibleText (Inline.runs rs).html = plainText rs) := by
  have hvisible := (Inline.reads_runs rs).visibleText
  refine ⟨hvisible, fun hplain => ?_⟩
  have htexts : rs.map TextRun.visibleText = rs.map TextRun.text :=
    List.map_congr_left fun r hr => TextRun.visibleText_of_plain (hplain r hr)
  rw [hvisible, htexts, plainText]

/-- A mention is not hidden by the markers around it, and hides a mention that comes later. -/
example : TextRun.visibleText
    ⟨"‣", [.link "/a", .pageMention "p1", .unknown "z", .userMention "u1"]⟩ = "@page_id:p1" := rfl

/-- Text with active characters, of which some look like a tag and an entity. -/
def disguised : List TextRun :=
  [⟨"<b>", [.bold, .link "/?a=\">&b", .unknown "z"]⟩, ⟨"&lt;", [.comment "d>", .color "<"]⟩]

theorem disguised_visibleText :
    (∀ r ∈ disguised, ∀ style ∈ r.styles, style.mention? = none) ∧
      Markup.visibleText (Inline.runs disguised).html = plainText disguised := by
  have hplain : ∀ r ∈ disguised, ∀ style ∈ r.styles, style.mention? = none := by
    simp [disguised, Style.mention?]
  exact ⟨hplain, (visibleText_runs disguised).2 hplain⟩

end Folio
