import Folio.BlockId
import Folio.CodeLanguage
import Folio.Decimal.Text
import Folio.Html.Inline
import Folio.Node

/-!
# Folio.Html.Page

Document trees as pages of HTML.

* Every child stands in a `div`, or in a list in an `li`, that carries its element id: the undashed
  id of its block, empty for a node that stands for no block.
* Every block is one element of the classes `block` and `block--` with the name of its type, and of
  the class of its color.
* The children of a block with text come after the text, inside `block__children`.
* A page at the root shows its header and its content. A page below it is a link.

`Renderer.render` makes the page of a tree.
-/

namespace Folio

structure Renderer where
  highlighter : Option Highlighter := none
  /-- The class of blocks without a color. -/
  defaultColor : String := ""
  /-- Whether the page is a whole document. -/
  standalone : Bool := false

structure Page where
  html : String
  title : Option String
  warnings : List Warning

namespace Renderer

/-! ## Parts of blocks -/

def elementId (id : Option String) : String :=
  match id with
  | some s => BlockId.undashed s
  | none => ""

/-- An image that is shown for decoration. -/
def picture (className source : String) : Rendered :=
  .void "img" [.className className, .value "src" source, .value "alt" ""]

/-- An icon: the image of an address, or an emoji as text. -/
def icon (className icon : String) : Rendered :=
  if "http://".toList.isPrefixOf icon.toList || "https://".toList.isPrefixOf icon.toList then
    picture className icon
  else .element "span" [.className className] (.text icon)

/-- A frame around an embedded page. -/
def frame (source : String) : Rendered :=
  .element "iframe" [.value "src" source, .value "loading" "lazy", .flag "allowfullscreen"] .empty

/-- A player of a video or a sound. -/
def player (tag source : String) : Rendered :=
  .element tag [.value "src" source, .flag "controls"] .empty

/-- Whether an address without its query names a video file. -/
def isVideoFile (source : String) : Bool :=
  let path := (source.toList.takeWhile (· != '?')).map Char.toLower
  [".mp4", ".webm", ".ogg", ".mov"].any fun ending => ending.toList.isSuffixOf path

/-- The caption of a media block, if there is one. -/
def caption (m : Media) : Rendered :=
  if m.caption.isEmpty then .empty else .element "figcaption" [] (Inline.title m.caption)

def image (m : Media) (source : String) : Rendered :=
  .void "img" ([.value "src" source, .value "alt" ""] ++
    (m.width.map fun w => Attribute.value "width" (FloatStyle.plain.write w)).toList)

/-- A video file in a player, any other video in a frame. -/
def video (source : String) : Rendered :=
  if isVideoFile source then player "video" source else frame source

def checkbox (checked : Bool) : Rendered :=
  .void "input" ([.value "type" "checkbox", .flag "disabled"] ++
    if checked then [.flag "checked"] else [])

def codeClasses (grammar : Option String) (wrap : Bool) : List String :=
  (grammar.map ("language-" ++ ·)).toList ++ if wrap then ["code--wrap"] else []

def listing (r : Renderer) (text : List TextRun) (language : Option String) (wrap : Bool) :
    Rendered :=
  let grammar := language.bind CodeLanguage.grammar?
  let attributes := match codeClasses grammar wrap with
    | [] => []
    | names => [.className (" ".intercalate names)]
  .element "pre" attributes (.element "code" [] (Inline.code r.highlighter grammar text))

def pageLink (id : Option String) (title : List TextRun) (pageIcon : Option String) : Rendered :=
  let address := match id with
    | some s => BlockId.uri s
    | none => ""
  .element "a" [.className "page__link", .value "href" address]
    (.ofOption (icon "page__icon") pageIcon ++ Inline.title title)

def fileLink (title : List TextRun) (source size : Option String) : Rendered :=
  .element "a" [.className "file__link", .value "href" (source.getD "")] (Inline.title title) ++
    .ofOption (fun s => .element "span" [.className "file__size"] (.text s)) size

/-- The preview of a bookmarked page. Without a title the address stands in its place. -/
def bookmark (link : Option String) (title description : List TextRun)
    (icon cover : Option String) : Rendered :=
  let address := link.getD ""
  .element "a" [.className "bookmark__link", .value "href" address]
    (.element "div" [.className "bookmark__text"]
      (.element "div" [.className "bookmark__title"]
          (if title.isEmpty then .text address else Inline.runs title) ++
        (if description.isEmpty then .empty
          else .element "div" [.className "bookmark__description"] (Inline.runs description)) ++
        .element "div" [.className "bookmark__url"] (.text address)) ++
      .ofOption (picture "bookmark__icon") icon ++ .ofOption (picture "bookmark__cover") cover)

/-- A link to another block of the page. Without a title the id stands in its place. -/
def aliasLink (target : String) (title : List TextRun) : Rendered :=
  let id := BlockId.undashed target
  .element "a" [.className "alias", .value "href" ("#" ++ id)]
    (if title.isEmpty then .text id else Inline.runs title)

/-- The share of a column in the width of its row. -/
def columnWidth (ratio : Option Float) : List Attribute :=
  match ratio with
  | some r =>
    if r.isFinite && 0 < r then
      [.value "style" ("width: " ++ FloatStyle.plain.write (r * 100) ++ "%")]
    else []
  | none => []

/-- The cells of a row outside a table. -/
def looseCells (cells : List (String × List TextRun)) : Rendered :=
  .join (cells.map fun cell => .element "span" [] (Inline.runs cell.2))

/-- Whether the cell of a row and a column, counted from zero, is a header. -/
def isHeader (columnHeader rowHeader : Bool) (row column : Nat) : Bool :=
  (columnHeader && row == 0) || (rowHeader && column == 0)

def cell (header : Bool) (text : Option (List TextRun)) : Rendered :=
  .element (if header then "th" else "td") [] (.ofOption Inline.runs text)

/-- The cells of a row of a table, from a column on. -/
def rowCells (columnHeader rowHeader : Bool) (row : Nat) (cells : List (String × List TextRun)) :
    (column : Nat) → List String → Rendered
  | _, [] => .empty
  | column, key :: rest =>
    cell (isHeader columnHeader rowHeader row column) (cells.lookup key) ++
      rowCells columnHeader rowHeader row cells (column + 1) rest

/-- The rows of a table, from a child on. Children that are not rows count but are not shown. -/
def tableRows (columnOrder : List String) (columnHeader rowHeader : Bool) :
    (child : Nat) → List Node → Rendered
  | _, [] => .empty
  | child, n :: rest =>
    (match n.kind with
      | .tableRow cells =>
        .element "tr" [.id (elementId n.id)]
          (rowCells columnHeader rowHeader child cells 0 columnOrder)
      | _ => .empty) ++
      tableRows columnOrder columnHeader rowHeader (child + 1) rest

/-! ## Blocks -/

def block (r : Renderer) (tag typeName : String) (color : Option ThemeColor)
    (attributes : List Attribute) (content : Rendered) : Rendered :=
  let colorClass := resolveClass color r.defaultColor
  let classes := "block block--" ++ typeName ++ if colorClass.isEmpty then "" else " " ++ colorClass
  .element tag (.className classes :: attributes) content

/-- The children of a block with text, if there are any. -/
def nested (children : List Node) (content : Rendered) : Rendered :=
  if children.isEmpty then .empty else .element "div" [.className "block__children"] content

def listTag : ListKind → String
  | .bulleted => "ul"
  | .numbered => "ol"

/-- The tag of a heading. Depths outside 1 to 3 count as the nearest of these. -/
def headingTag (depth : Nat) : String :=
  if depth ≤ 1 then "h1" else if depth = 2 then "h2" else "h3"

mutual

def node (r : Renderer) : Node → Rendered
  | ⟨id, kind, color, _, _, children⟩ =>
    let block (tag : String) (content : Rendered) := r.block tag kind.typeName color [] content
    match kind with
    | .page title icon _ _ => block "div" (pageLink id title icon)
    | .text t => block "div" (Inline.title t ++ nested children (r.nodes "div" children))
    | .heading depth t =>
      block (headingTag depth) (Inline.title t) ++ nested children (r.nodes "div" children)
    | .toDo t checked =>
      block "div" (checkbox checked ++ Inline.title t ++ nested children (r.nodes "div" children))
    | .listItem _ t => block "div" (Inline.title t ++ nested children (r.nodes "div" children))
    | .list k => block (listTag k) (r.nodes "li" children)
    | .toggle t =>
      block "details" (.element "summary" [] (Inline.title t) ++ r.nodes "div" children)
    | .quote t => block "blockquote" (Inline.title t ++ nested children (r.nodes "div" children))
    | .callout t pageIcon =>
      block "div" (.ofOption (icon "callout__icon") pageIcon ++
        .element "div" [.className "callout__content"]
          (Inline.title t ++ nested children (r.nodes "div" children)))
    | .divider => block "div" (.void "hr" [])
    | .code t language wrap => block "div" (r.listing t language wrap)
    | .equation expression =>
      block "div" (.element "span" [.className "equation"] (.text expression))
    | .image m => block "figure" (.ofOption (image m) m.source ++ caption m)
    | .video m => block "figure" (.ofOption video m.source ++ caption m)
    | .audio m => block "figure" (.ofOption (player "audio") m.source ++ caption m)
    | .embed m => block "figure" (.ofOption frame m.source ++ caption m)
    | .file title source size => block "div" (fileLink title source size)
    | .bookmark link title description icon cover =>
      block "div" (bookmark link title description icon cover)
    | .columnList => block "div" (r.nodes "div" children)
    | .column ratio =>
      r.block "div" kind.typeName color (columnWidth ratio) (r.nodes "div" children)
    | .table order columnHeader rowHeader =>
      block "table" (.element "tbody" [] (tableRows order columnHeader rowHeader 0 children))
    | .tableRow cells => block "div" (looseCells cells)
    | .aliasOf target title => block "div" (aliasLink target title)
    | .unsupported _ => block "div" (nested children (r.nodes "div" children))

/-- Blocks in a row, each inside an element with its id. -/
def nodes (r : Renderer) (tag : String) : List Node → Rendered
  | [] => .empty
  | n :: rest => .element tag [.id (elementId n.id)] (r.node n) ++ r.nodes tag rest

end

/-! ## Pages -/

/-- The page at the root: its header and its content. -/
def rootPage (r : Renderer) (id : Option String) (title : List TextRun)
    (pageIcon cover : Option String) (fullWidth : Bool) (children : List Node) : Rendered :=
  .element "article"
    [.id (elementId id), .className (if fullWidth then "page page--full-width" else "page")]
    (.ofOption (picture "page__cover") cover ++
      .element "header" [.className "page__header"]
        (.ofOption (icon "page__icon") pageIcon ++
          .element "h1" [.className "page__title"] (Inline.title title)) ++
      r.nodes "div" children)

/-- The root of a tree. A root that is no page is shown like a child. -/
def root (r : Renderer) (n : Node) : Rendered :=
  match n.kind with
  | .page title icon cover fullWidth => r.rootPage n.id title icon cover fullWidth n.children
  | _ => r.nodes "div" [n]

/-- The plain title of a tree whose root is a page. -/
def titleOf (n : Node) : Option String :=
  match n.kind with
  | .page title .. => some (plainText title)
  | _ => none

def document (title body : String) : String :=
  "<!DOCTYPE html>\n<html>\n<head>\n<meta charset=\"utf-8\">\n<title>" ++ Escape.text title ++
    "</title>\n</head>\n<body>\n" ++ body ++ "\n</body>\n</html>\n"

def render (r : Renderer) (n : Node) : Page :=
  let body := r.root n
  let title := titleOf n
  { html := if r.standalone then document (title.getD "") body.html else body.html
    title := title
    warnings := body.warnings }

end Renderer
end Folio
