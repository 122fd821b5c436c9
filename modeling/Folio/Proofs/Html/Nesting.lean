import Folio.Proofs.Html.Reports
import Folio.Proofs.Html.VisibleText

/-!
# Folio.Proofs.Html.Nesting

How the markers of a run nest. A marker wraps the markup inside it, puts a mention in its place, or
leaves it alone and is reported; lists of markers are applied one after another.

* `Style.startTag`, `Style.endTag`: what a marker writes around the markup inside it.
* `Inline.html_applyStyles`: without mentions all start tags stand in front, from the first marker
  on, and all end tags behind, down to the first marker.
* `Inline.html_applyStyles_mention`: of the markers inside a mention, and of the text, nothing is
  left.
* `markers_compose`: the markers of two lists in a row, with their reports.
-/

namespace Folio

namespace Style

/-- The tag in front of the markup inside a marker. Only markers that wrap markup have one. -/
def startTag : Style → String
  | bold => "<strong>"
  | italic => "<em>"
  | strike => "<del>"
  | underline => "<u>"
  | code => "<code>"
  | link target => "<a href=\"" ++ Escape.attr (Anchor.localAnchor target) ++ "\">"
  | color token => "<span class=\"" ++ Escape.attr (resolve (some token) "") ++ "\">"
  | comment _ => "<span class=\"color-comment\">"
  | userMention _ | pageMention _ | date _ | unknown _ => ""

/-- The tag behind the markup inside a marker. -/
def endTag : Style → String
  | bold => "</strong>"
  | italic => "</em>"
  | strike => "</del>"
  | underline => "</u>"
  | code => "</code>"
  | link _ => "</a>"
  | color _ | comment _ => "</span>"
  | userMention _ | pageMention _ | date _ | unknown _ => ""

def startTags (styles : List Style) : String :=
  String.join (styles.map startTag)

def endTags (styles : List Style) : String :=
  String.join (styles.reverse.map endTag)

theorem startTags_cons (style : Style) (rest : List Style) :
    startTags (style :: rest) = style.startTag ++ startTags rest := by
  rw [startTags, List.map_cons, String.join_cons, startTags]

theorem endTags_cons (style : Style) (rest : List Style) :
    endTags (style :: rest) = endTags rest ++ style.endTag := by
  rw [endTags, List.reverse_cons, List.map_append, String.join_append, endTags]
  simp

/-- A list with a mention splits at the first one. -/
theorem exists_first_mention {styles : List Style} (h : ∃ style ∈ styles, style.mention? ≠ none) :
    ∃ before style after label, styles = before ++ style :: after ∧
      (∀ style ∈ before, style.mention? = none) ∧ style.mention? = some label := by
  obtain ⟨style, hmem, hne⟩ := h
  cases hfirst : styles.findSome? mention? with
  | none => exact absurd (List.findSome?_eq_none_iff.mp hfirst style hmem) hne
  | some label =>
    obtain ⟨before, style, after, heq, hlabel, hbefore⟩ :=
      List.findSome?_eq_some_iff.mp hfirst
    exact ⟨before, style, after, label, heq, hbefore, hlabel⟩

end Style

/-- The markup that a mention puts in place of a text. -/
def Markup.mentionText (label : String) : String :=
  "<span class=\"color-mention\">" ++ Escape.text label ++ "</span>"

theorem Markup.startTag_value (tag name v : String) :
    startTag tag [.value name v] =
      "<" ++ tag ++ " " ++ name ++ "=\"" ++ Escape.attr v ++ "\">" := by
  simp only [startTag, Attribute.write, List.map_cons, List.map_nil, String.join_cons,
    String.join_nil, String.append_empty, String.append_assoc]
  rfl

namespace Inline

open Rendered Style

/-! ## One marker -/

theorem html_applyStyle {style : Style} (h : style.mention? = none) (inner : Rendered) :
    (applyStyle style inner).html = style.startTag ++ inner.html ++ style.endTag := by
  cases style with
  | bold => exact html_element "strong" [] inner
  | italic => exact html_element "em" [] inner
  | strike => exact html_element "del" [] inner
  | underline => exact html_element "u" [] inner
  | code => exact html_element "code" [] inner
  | link target =>
    rw [applyStyle, html_element, Markup.startTag_value]
    rfl
  | color token =>
    rw [applyStyle, html_element, Attribute.className, Markup.startTag_value]
    rfl
  | comment id => exact html_element "span" [.className "color-comment"] inner
  | unknown code => simp [applyStyle, warn, html, Style.startTag, Style.endTag]
  | userMention id => cases h
  | pageMention id => cases h
  | date d => cases h

theorem html_mention (inner : Rendered) (label : String) :
    (inner.replace (mention label)).html = Markup.mentionText label := by
  have hspan : (element "span" [.className "color-mention"] (text label)).html =
      Markup.mentionText label := by
    rw [html_element, text, html_only]
    rfl
  exact hspan

theorem html_applyStyle_mention {style : Style} {label : String} (h : style.mention? = some label)
    (inner : Rendered) : (applyStyle style inner).html = Markup.mentionText label := by
  cases style with
  | userMention id =>
    obtain rfl := Option.some.inj h
    exact html_mention inner _
  | pageMention id =>
    obtain rfl := Option.some.inj h
    exact html_mention inner _
  | date d =>
    obtain rfl := Option.some.inj h
    exact html_mention inner _
  | _ => cases h

/-! ## Lists of markers -/

variable {styles before : List Style}

theorem applyStyles_append (inner : Rendered) (outside inside : List Style) :
    applyStyles inner (outside ++ inside) = applyStyles (applyStyles inner inside) outside :=
  List.foldr_append

/-- Only the text of the markup inside counts for the text of the whole. -/
theorem html_applyStyles_congr {a b : Rendered} (h : a.html = b.html) (styles : List Style) :
    (applyStyles a styles).html = (applyStyles b styles).html := by
  induction styles with
  | nil => exact h
  | cons style rest ih =>
    change (applyStyle style (applyStyles a rest)).html =
      (applyStyle style (applyStyles b rest)).html
    cases hmention : style.mention? with
    | none => rw [html_applyStyle hmention, html_applyStyle hmention, ih]
    | some label => rw [html_applyStyle_mention hmention, html_applyStyle_mention hmention]

theorem html_applyStyles (h : ∀ style ∈ styles, style.mention? = none) (inner : Rendered) :
    (applyStyles inner styles).html = startTags styles ++ inner.html ++ endTags styles := by
  induction styles with
  | nil => simp [applyStyles, startTags, endTags]
  | cons style rest ih =>
    obtain ⟨hstyle, hrest⟩ := List.forall_mem_cons.mp h
    have houter : (applyStyles inner (style :: rest)).html =
        style.startTag ++ (applyStyles inner rest).html ++ style.endTag :=
      html_applyStyle hstyle _
    rw [houter, ih hrest, startTags_cons, endTags_cons]
    simp only [String.append_assoc]

/-- The first mention stands inside the markers in front of it. -/
theorem html_applyStyles_mention (hbefore : ∀ style ∈ before, style.mention? = none)
    {style : Style} {label : String} (hstyle : style.mention? = some label) (inner : Rendered)
    (after : List Style) :
    (applyStyles inner (before ++ style :: after)).html =
      startTags before ++ Markup.mentionText label ++ endTags before := by
  have hmention : (applyStyles inner (style :: after)).html = Markup.mentionText label :=
    html_applyStyle_mention hstyle _
  rw [applyStyles_append, html_applyStyles hbefore, hmention]

end Inline

open Inline Style in
/-- The markers of two lists in a row are those of the second list inside those of the first, in the
markup as well as in the reports. A mention in the first list stands for all that is inside of it,
reports apart; without mentions the markup inside stands between the start tags of all markers and
their end tags. -/
theorem markers_compose (inner : Rendered) (outside inside : List Style) :
    applyStyles inner (outside ++ inside) = applyStyles (applyStyles inner inside) outside ∧
      (applyStyles inner (outside ++ inside)).html =
        (applyStyles (.only (.verbatim (applyStyles inner inside).html)) outside).html ∧
      (applyStyles inner (outside ++ inside)).warnings =
        inner.warnings ++
          (inside.reverse.filterMap report? ++ outside.reverse.filterMap report?) ∧
      ((∃ style ∈ outside, style.mention? ≠ none) →
        ∀ (inner' : Rendered) (inside' : List Style),
          (applyStyles inner' (outside ++ inside')).html =
            (applyStyles inner (outside ++ inside)).html) ∧
      ((∀ style ∈ outside ++ inside, style.mention? = none) →
        (applyStyles inner (outside ++ inside)).html =
          startTags (outside ++ inside) ++ inner.html ++ endTags (outside ++ inside)) := by
  have hcompose := applyStyles_append inner outside inside
  refine ⟨hcompose, ?_, ?_, ?_, fun hplain => html_applyStyles hplain inner⟩
  · have htext : (applyStyles inner inside).html =
        (Rendered.only (.verbatim (applyStyles inner inside).html)).html := by
      rw [Rendered.html_only, Markup.write]
    rw [hcompose]
    exact html_applyStyles_congr htext outside
  · rw [hcompose, warnings_applyStyles, warnings_applyStyles, List.append_assoc]
  · intro hmention inner' inside'
    obtain ⟨before, style, after, label, rfl, hbefore, hstyle⟩ := exists_first_mention hmention
    rw [List.append_assoc, List.append_assoc, List.cons_append, List.cons_append,
      html_applyStyles_mention hbefore hstyle, html_applyStyles_mention hbefore hstyle]

open Inline in
theorem markers_compose_around_text :
    let outside : List Style := [.bold, .unknown "y"]
    let inside : List Style := [.unknown "z", .comment "d"]
    (applyStyles (.text "x") (outside ++ inside)).html =
        "<strong><span class=\"color-comment\">x</span></strong>" ∧
      (applyStyles (.text "x") (outside ++ inside)).warnings =
        [.unsupportedStyle "z", .unsupportedStyle "y"] ∧
      ∀ (inner : Rendered) (inside' : List Style),
        (applyStyles inner ([.italic, .pageMention "p1"] ++ inside')).html =
          "<em><span class=\"color-mention\">@page_id:p1</span></em>" := by
  intro outside inside
  obtain ⟨-, -, hwarnings, -, hplain⟩ := markers_compose (.text "x") outside inside
  obtain ⟨-, -, -, hmention, -⟩ :=
    markers_compose .empty ([.italic, .pageMention "p1"] : List Style) []
  refine ⟨(hplain (by decide)).trans ?_, hwarnings, fun inner inside' => ?_⟩
  · decide +kernel
  · rw [hmention ⟨.pageMention "p1", by decide, by decide⟩ inner inside']
    decide +kernel

end Folio
