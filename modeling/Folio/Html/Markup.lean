import Folio.Html.Escape

/-!
# Folio.Html.Markup

Trees of markup and their text. Every element is closed where its content ends, text and attribute
values are escaped when the tree is written. Two parts stand in the output as they are: block ids
in attributes, and code that a highlighter returns.
-/

namespace Folio

inductive Attribute where
  /-- A name alone, such as `disabled`. -/
  | flag (name : String)
  /-- A value that is escaped. -/
  | value (name value : String)
  /-- A value that is written as it is. -/
  | verbatim (name value : String)
deriving DecidableEq, Repr

inductive Markup where
  /-- Text, which is escaped. -/
  | text (s : String)
  /-- Markup that someone else wrote. -/
  | verbatim (s : String)
  /-- An element that has no content and no end tag. -/
  | void (tag : String) (attributes : List Attribute)
  | element (tag : String) (attributes : List Attribute) (content : List Markup)
deriving Repr, Inhabited

namespace Attribute

def write : Attribute → String
  | flag name => " " ++ name
  | value name v => " " ++ name ++ "=\"" ++ Escape.attr v ++ "\""
  | verbatim name v => " " ++ name ++ "=\"" ++ v ++ "\""

def className (names : String) : Attribute := value "class" names

def id (id : String) : Attribute := verbatim "id" id

end Attribute

namespace Markup

def startTag (tag : String) (attributes : List Attribute) : String :=
  "<" ++ tag ++ String.join (attributes.map Attribute.write) ++ ">"

def endTag (tag : String) : String :=
  "</" ++ tag ++ ">"

mutual

def write : Markup → String
  | text s => Escape.text s
  | verbatim s => s
  | void tag attributes => startTag tag attributes
  | element tag attributes content => startTag tag attributes ++ writeAll content ++ endTag tag

def writeAll : List Markup → String
  | [] => ""
  | m :: rest => write m ++ writeAll rest

end

theorem writeAll_append (as bs : List Markup) :
    writeAll (as ++ bs) = writeAll as ++ writeAll bs := by
  induction as with
  | nil => simp [writeAll]
  | cons m rest ih => rw [List.cons_append, writeAll, ih, writeAll, String.append_assoc]

end Markup
end Folio
