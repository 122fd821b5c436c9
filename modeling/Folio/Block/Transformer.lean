import Folio.Block
import Folio.BlockId
import Folio.Node
import Folio.Url.Asset

/-!
# Folio.Block.Transformer

Nodes from blocks. A transformer reads the fields of one kind of node from a block; the id, the
color, the times and the children are the same for all of them. What is missing or malformed in a
block becomes `none`, `false` or an empty text.

* `Transformer.kindOf`: what a transformer makes of a block.
* `Transformer.node`: the whole node.
-/

namespace Folio

namespace Block

/-- The icon with its public address. Aliases have none. -/
def publicIcon? (b : Block) : Option String :=
  if b.isAlias then none
  else (b.icon?.filter (!·.isEmpty)).map fun icon => Asset.imageUrl b.id icon none

/-- The source of a media block: the one to display, or else the one that was given. -/
def source? (b : Block) : Option String :=
  ((b.formatString? "display_source").or (b.firstText? "source")).filter (!·.isEmpty)

/-- The source as the address of a file. -/
def fileSource? (b : Block) : Option String :=
  b.source?.map (Asset.fileUrl b.id)

/-- The source as the address of an image of the block's width. -/
def imageSource? (b : Block) : Option String :=
  b.source?.map fun url => Asset.imageUrl b.id url b.width?

/-- The fields of a media node around its source. -/
def media (b : Block) (source : Option String) : Media where
  source := source
  width := b.width?
  fullWidth := b.formatFlag "block_full_width"
  caption := b.runs "caption"

/-- The block that an alias points at. -/
def aliasTarget (b : Block) : String :=
  match ((b.format? "alias_pointer").bind (·.member? "id")).bind Json.string? with
  | some id => BlockId.dashed id
  | none => ""

/-- The column ids of a table in order. -/
def columnOrder (b : Block) : List String :=
  (((b.format? "table_block_column_order").bind Json.elements?).getD []).filterMap Json.string?

/-- The properties that are texts, under their names. -/
def cells (b : Block) : List (String × List TextRun) :=
  (b.properties.getD []).filterMap fun (column, _) => (b.runs? column).map (column, ·)

end Block

/-- The ways to make a node of a block. -/
inductive Transformer where
  | page | text | header | subHeader | subSubHeader | toDo | bulletedList | numberedList | toggle
  | quote | callout | divider | code | equation | image | video | audio | embed | file | bookmark
  | columnList | column | table | tableRow | aliasOf | unsupported
deriving DecidableEq, Repr

namespace Transformer

/-- What a transformer makes of a block. The title of an alias stays empty here. -/
def kindOf (b : Block) : Transformer → NodeKind
  | page =>
    .page b.title b.publicIcon?
      ((b.formatString? "page_cover").map fun cover => Asset.imageUrl b.id cover none)
      (b.formatFlag "page_full_width")
  | text => .text b.title
  | header => .heading 1 b.title
  | subHeader => .heading 2 b.title
  | subSubHeader => .heading 3 b.title
  | toDo => .toDo b.title (b.firstText? "checked" == some "Yes")
  | bulletedList => .listItem .bulleted b.title
  | numberedList => .listItem .numbered b.title
  | toggle => .toggle b.title
  | quote => .quote b.title
  | callout => .callout b.title b.publicIcon?
  | divider => .divider
  | code => .code b.title (b.firstText? "language") (b.formatFlag "code_wrap")
  | equation => .equation (plainText b.title)
  | image => .image (b.media b.imageSource?)
  | video => .video (b.media b.fileSource?)
  | audio => .audio (b.media b.fileSource?)
  | embed => .embed (b.media b.fileSource?)
  | file => .file b.title b.fileSource? (b.firstText? "size")
  | bookmark =>
    .bookmark (b.firstText? "link") b.title (b.runs "description") (b.formatString? "bookmark_icon")
      (b.formatString? "bookmark_cover")
  | columnList => .columnList
  | column => .column (b.formatFloat? "column_ratio")
  | table =>
    .table b.columnOrder (b.formatFlag "table_block_column_header")
      (b.formatFlag "table_block_row_header")
  | tableRow => .tableRow b.cells
  | aliasOf => .aliasOf b.aliasTarget []
  | unsupported => .unsupported b.blockType

/-- The node of a block around children that are there already. -/
def node (t : Transformer) (b : Block) (children : List Node) : Node where
  id := some b.id
  kind := t.kindOf b
  color := b.colorToken?.bind ThemeColor.parse?
  createdTime := b.createdTime
  lastEditedTime := b.lastEditedTime
  children := children

end Transformer
end Folio
