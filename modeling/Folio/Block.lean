import Folio.Json.Basic
import Folio.TextRun.Json

/-!
# Folio.Block

One block of a document as it is stored. Only an id and a type are common to all blocks. Which
properties and format hints mean something depends on the type, so both are kept as JSON and read
through accessors that yield nothing for what is absent or of another shape.
-/

namespace Folio

/-- A stored block. Properties and format hints are sorted by key. -/
structure Block where
  id : String := ""
  blockType : String := ""
  properties : Option (List (String × Json)) := none
  format : Option (List (String × Json)) := none
  content : Option (List String) := none
  parentId : Option String := none
  parentTable : Option String := none
  alive : Option Bool := none
  createdTime : Option Int := none
  lastEditedTime : Option Int := none
  version : Option Nat := none
deriving Repr, Inhabited

namespace Block

def property? (b : Block) (name : String) : Option Json :=
  b.properties.bind (List.lookup name)

def runs? (b : Block) (name : String) : Option (List TextRun) :=
  (b.property? name).bind TextRun.listOfJson?

def head? (v : Json) : Option Json :=
  v.elements?.bind List.head?

/-- The text at the head of a property's first run. -/
def firstText? (b : Block) (name : String) : Option String := do
  (← head? (← head? (← b.property? name))).string?

/-- The runs of a property, none if they cannot be read. -/
def runs (b : Block) (name : String) : List TextRun :=
  (b.runs? name).getD []

def title (b : Block) : List TextRun :=
  b.runs "title"

def format? (b : Block) (key : String) : Option Json :=
  b.format.bind (List.lookup key)

def formatString? (b : Block) (key : String) : Option String :=
  (b.format? key).bind Json.string?

def formatFloat? (b : Block) (key : String) : Option Float :=
  (b.format? key).bind Json.float?

def formatBool? (b : Block) (key : String) : Option Bool :=
  (b.format? key).bind Json.bool?

/-- A format hint that counts as false unless it is set. -/
def formatFlag (b : Block) (key : String) : Bool :=
  (b.formatBool? key).getD false

/-- Whether the block stands for another one. -/
def isAlias (b : Block) : Bool :=
  b.blockType == "alias"

/-- Pages and aliases point at content that belongs elsewhere. -/
def isReference (b : Block) : Bool :=
  b.blockType == "page" || b.isAlias

/-- Only a block that is marked as deleted is not alive. -/
def isAlive (b : Block) : Bool :=
  b.alive != some false

/-- The color token. Aliases never have one. -/
def colorToken? (b : Block) : Option String :=
  if b.isAlias then none else b.formatString? "block_color"

/-- The icon of a page: an emoji or the address of an image. -/
def icon? (b : Block) : Option String :=
  b.formatString? "page_icon"

/-- The width of a media block in pixels. -/
def width? (b : Block) : Option Float :=
  b.formatFloat? "block_width"

end Block
end Folio
