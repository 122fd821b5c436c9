import Folio.Color
import Folio.TextRun

/-!
# Folio.Node

The document tree. A node carries what the record of its block says, in a form of its own for each
kind of block, and its children. A node that stands for no block, such as a list around list items,
has no id.
-/

namespace Folio

inductive ListKind where
  | bulleted
  | numbered
deriving DecidableEq, Repr

/-- What images, videos, sounds and embedded pages have in common. -/
structure Media where
  /-- The public address. -/
  source : Option String := none
  /-- The width in pixels. -/
  width : Option Float := none
  fullWidth : Bool := false
  caption : List TextRun := []
deriving Repr

/-- What a node is, with the fields of its kind. -/
inductive NodeKind where
  | page (title : List TextRun) (icon cover : Option String) (fullWidth : Bool)
  | text (text : List TextRun)
  | heading (depth : Nat) (text : List TextRun)
  | toDo (text : List TextRun) (checked : Bool)
  | listItem (list : ListKind) (text : List TextRun)
  /-- Consecutive list items of one kind. -/
  | list (list : ListKind)
  | toggle (text : List TextRun)
  | quote (text : List TextRun)
  | callout (text : List TextRun) (icon : Option String)
  | divider
  | code (text : List TextRun) (language : Option String) (wrap : Bool)
  | equation (expression : String)
  | image (media : Media)
  | video (media : Media)
  | audio (media : Media)
  | embed (media : Media)
  | file (title : List TextRun) (source size : Option String)
  | bookmark (link : Option String) (title description : List TextRun) (icon cover : Option String)
  | columnList
  /-- The ratio is the share of the width of the row. -/
  | column (ratio : Option Float)
  | table (columnOrder : List String) (columnHeader rowHeader : Bool)
  /-- The cells are sorted by the id of their column. -/
  | tableRow (cells : List (String × List TextRun))
  /-- A reference to another block. -/
  | aliasOf (target : String) (title : List TextRun)
  /-- A block of a type that nothing is registered for. -/
  | unsupported (blockType : String)
deriving Repr, Inhabited

structure Node where
  id : Option String
  kind : NodeKind
  color : Option ThemeColor
  createdTime : Option Int
  lastEditedTime : Option Int
  children : List Node
deriving Repr, Inhabited

namespace NodeKind

/-- The name of a kind in class names. -/
def typeName : NodeKind → String
  | page .. => "page"
  | text .. => "text"
  | heading .. => "heading"
  | toDo .. => "to_do"
  | listItem .bulleted _ => "bulleted_list_item"
  | listItem .numbered _ => "numbered_list_item"
  | list .bulleted => "bulleted_list"
  | list .numbered => "numbered_list"
  | toggle .. => "toggle"
  | quote .. => "quote"
  | callout .. => "callout"
  | divider => "divider"
  | code .. => "code"
  | equation .. => "equation"
  | image .. => "image"
  | video .. => "video"
  | audio .. => "audio"
  | embed .. => "embed"
  | file .. => "file"
  | bookmark .. => "bookmark"
  | columnList => "column_list"
  | column .. => "column"
  | table .. => "table"
  | tableRow .. => "table_row"
  | aliasOf .. => "alias"
  | unsupported .. => "unsupported"

/-- The main text of a kind that has one. -/
def mainText? : NodeKind → Option (List TextRun)
  | page title .. => some title
  | file title .. => some title
  | aliasOf _ title => some title
  | text t => some t
  | heading _ t => some t
  | toDo t _ => some t
  | listItem _ t => some t
  | toggle t => some t
  | quote t => some t
  | callout t _ => some t
  | code t .. => some t
  | _ => none

/-- The kind of list that an item belongs to. -/
def itemOf? : NodeKind → Option ListKind
  | listItem kind _ => some kind
  | _ => none

end NodeKind

namespace Node

/-- A node that stands for no block. -/
def synthetic (kind : NodeKind) (children : List Node) : Node :=
  { id := none, kind, color := none, createdTime := none, lastEditedTime := none, children }

mutual

def count : Node → Nat
  | ⟨_, _, _, _, _, children⟩ => 1 + countAll children

def countAll : List Node → Nat
  | [] => 0
  | n :: rest => count n + countAll rest

end

end Node
end Folio
