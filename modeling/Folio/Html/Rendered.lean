import Folio.Html.Markup
import Folio.Warning

/-!
# Folio.Html.Rendered

Markup together with the warnings that came up while it was made. Pieces are put in a row with
`++`, which keeps both in document order.
-/

namespace Folio

/-- Markup and the warnings that belong to it. -/
structure Rendered where
  markup : List Markup := []
  warnings : List Warning := []
deriving Repr

namespace Rendered

def append (a b : Rendered) : Rendered :=
  ⟨a.markup ++ b.markup, a.warnings ++ b.warnings⟩

instance : Append Rendered := ⟨append⟩

theorem append_assoc (a b c : Rendered) : a ++ b ++ c = a ++ (b ++ c) := by
  change Rendered.mk (a.markup ++ b.markup ++ c.markup) (a.warnings ++ b.warnings ++ c.warnings) = _
  rw [List.append_assoc, List.append_assoc]
  rfl

def empty : Rendered := {}

def join : List Rendered → Rendered
  | [] => empty
  | r :: rest => r ++ join rest

def only (m : Markup) : Rendered := ⟨[m], []⟩

/-- Text to be escaped. -/
def text (s : String) : Rendered := only (.text s)

/-- An element without content and end tag. -/
def void (tag : String) (attributes : List Attribute) : Rendered := only (.void tag attributes)

def element (tag : String) (attributes : List Attribute) (content : Rendered) : Rendered :=
  ⟨[.element tag attributes content.markup], content.warnings⟩

/-- Other markup, with the warnings of what it stands for. -/
def replace (r : Rendered) (m : Markup) : Rendered := ⟨[m], r.warnings⟩

/-- The same markup with one more warning at the end. -/
def warn (r : Rendered) (w : Warning) : Rendered := ⟨r.markup, r.warnings ++ [w]⟩

/-- Something that may be absent. -/
def ofOption (f : α → Rendered) : Option α → Rendered
  | some x => f x
  | none => empty

def html (r : Rendered) : String := Markup.writeAll r.markup

@[simp] theorem html_append (a b : Rendered) : (a ++ b).html = a.html ++ b.html :=
  Markup.writeAll_append a.markup b.markup

@[simp] theorem html_only (m : Markup) : (only m).html = m.write := by
  simp [html, only, Markup.writeAll]

@[simp] theorem html_element (tag : String) (attributes : List Attribute) (content : Rendered) :
    (element tag attributes content).html =
      Markup.startTag tag attributes ++ content.html ++ Markup.endTag tag := by
  simp [html, element, Markup.writeAll, Markup.write]

end Rendered
end Folio
