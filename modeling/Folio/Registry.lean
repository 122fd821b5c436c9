import Folio.Block.Transformer
import Folio.Node.ListGroup
import Folio.Warning

/-!
# Folio.Registry

Makers of nodes by block type. A block of a type without an entry becomes an unsupported node,
which is reported.

* `Registry.builtin`, `Registry.empty`, `Registry.register`: the registries there are.
* `Registry.transform`: the node of a block around its children, whose list items are grouped.
-/

namespace Folio

/-- Makes the node of a block around its children. Any function will do; the transformers are
those that there are by themselves. -/
abbrev NodeMaker := Block → List Node → Node

instance : Coe Transformer NodeMaker := ⟨Transformer.node⟩

/-- Makers of nodes by block type, the entry that was registered last in front. -/
structure Registry where
  entries : List (String × NodeMaker)

namespace Registry

def empty : Registry := ⟨[]⟩

/-- Registers a maker for a block type, in place of any other. -/
def register (r : Registry) (tag : String) (make : NodeMaker) : Registry :=
  ⟨(tag, make) :: r.entries⟩

/-- The transformers of all block types there are by themselves. -/
def builtinTransformers : List (String × Transformer) :=
  [("page", .page), ("text", .text), ("header", .header), ("sub_header", .subHeader),
   ("sub_sub_header", .subSubHeader), ("to_do", .toDo), ("bulleted_list", .bulletedList),
   ("numbered_list", .numberedList), ("toggle", .toggle), ("quote", .quote),
   ("callout", .callout), ("divider", .divider), ("code", .code), ("equation", .equation),
   ("image", .image), ("video", .video), ("audio", .audio), ("embed", .embed),
   ("tweet", .embed), ("gist", .embed), ("codepen", .embed), ("figma", .embed), ("maps", .embed),
   ("pdf", .embed), ("file", .file), ("bookmark", .bookmark), ("column_list", .columnList),
   ("column", .column), ("table", .table), ("table_row", .tableRow), ("alias", .aliasOf)]

/-- The registry of all block types there are by themselves. -/
def builtin : Registry :=
  ⟨builtinTransformers.map fun (tag, t) => (tag, t.node)⟩

def find? (r : Registry) (tag : String) : Option NodeMaker :=
  r.entries.lookup tag

def isRegistered (r : Registry) (tag : String) : Bool :=
  (r.find? tag).isSome

/-- The registered block types in ascending order. -/
def tags (r : Registry) : List String :=
  (r.entries.map (·.1)).eraseDups.mergeSort (· ≤ ·)

/-- The node of a block around its children, and the warning if its type is not known. -/
def transform (r : Registry) (b : Block) (children : List Node) : Node × List Warning :=
  let children := Node.groupItems children
  match r.find? b.blockType with
  | some make => (make b children, [])
  | none =>
    (Transformer.unsupported.node b children, [.unsupportedBlockType b.id b.blockType])

end Registry
end Folio
