import Folio.Block
import Folio.Json.Fields
import Folio.Json.Reader

/-!
# Folio.Block.Json

Blocks in JSON. Of a block that stands alone in a text, members that no field is read from may hold
anything.
-/

namespace Folio
namespace Block

def fieldNames : List String :=
  ["id", "type", "properties", "format", "content", "parent_id", "parent_table", "alive",
   "created_time", "last_edited_time", "version"]

def signedWord? : Json → Option Int :=
  Json.intIn? (-Int.pow 2 63) (Int.pow 2 63)

def unsignedWord? (v : Json) : Option Nat :=
  (Json.intIn? 0 (Int.pow 2 64) v).map Int.toNat

def ofJson? (v : Json) : Option Block := do
  let fields ← v.fields? fieldNames
  some {
    id := ← Json.defaulted? "" Json.string? (fields.lookup "id")
    blockType := ← Json.defaulted? "" Json.string? (fields.lookup "type")
    properties := ← Json.optional? Json.members? (fields.lookup "properties")
    format := ← Json.optional? Json.members? (fields.lookup "format")
    content := ← Json.optional? (Json.list? Json.string?) (fields.lookup "content")
    parentId := ← Json.optional? Json.string? (fields.lookup "parent_id")
    parentTable := ← Json.optional? Json.string? (fields.lookup "parent_table")
    alive := ← Json.optional? Json.bool? (fields.lookup "alive")
    createdTime := ← Json.optional? signedWord? (fields.lookup "created_time")
    lastEditedTime := ← Json.optional? signedWord? (fields.lookup "last_edited_time")
    version := ← Json.optional? unsignedWord? (fields.lookup "version") }

def ofText? (text : String) : Option Block := do
  ofJson? (← (← Json.Written.ofText? text).readKnown? fieldNames)

end Block
end Folio
