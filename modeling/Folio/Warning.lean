/-!
# Folio.Warning

Things that were skipped or shown in a reduced form while work went on.
-/

namespace Folio

/-- A condition that is reported and does not stop anything. -/
inductive Warning where
  /-- No transformer is registered for the type of a block. -/
  | unsupportedBlockType (id blockType : String)
  /-- No rendering is known for a style marker. -/
  | unsupportedStyle (code : String)
  /-- A declared child has no record. -/
  | unresolvedChild (parent child : String)
deriving DecidableEq, Repr

namespace Warning

def message : Warning → String
  | unsupportedBlockType id blockType => s!"unsupported block type '{blockType}' ({id})"
  | unsupportedStyle code => s!"unsupported style marker '{code}'"
  | unresolvedChild parent child => s!"child {child} of {parent} not found"

end Warning
end Folio
