import Folio.Node

/-!
# Folio.Node.ListGroup

Lists around list items. Records store each item as a block beside the others, and none for the
list. `groupItems` wraps every longest row of items of one kind into one list node and leaves all
other nodes where they are.
-/

namespace Folio
namespace Node

def isItemOf (kind : ListKind) (n : Node) : Bool :=
  n.kind.itemOf? == some kind

/-- The nodes with each longest row of items of one kind in a list. -/
def groupItems : List Node → List Node
  | [] => []
  | n :: rest =>
    match n.kind.itemOf? with
    | none => n :: groupItems rest
    | some kind =>
      synthetic (.list kind) (n :: rest.takeWhile (isItemOf kind)) ::
        groupItems (rest.dropWhile (isItemOf kind))
termination_by nodes => nodes.length
decreasing_by
  · simp
  · have := (List.dropWhile_suffix (l := rest) (isItemOf kind)).length_le
    simp only [List.length_cons]
    omega

end Node
end Folio
