import Folio.Block.Json
import Folio.RecordMap

/-!
# Folio.RecordMap.Dump

Dumps of record maps. A dump is an object whose member `block` holds an entry for each block, with
the block under `value`; the whole may be wrapped in an object under `recordMap`. An entry without
a value is skipped, and a block without an id takes the key of its entry.

* `RecordMap.ofText`: the record map of a dump, or why there is none.
-/

namespace Folio
namespace RecordMap

inductive DumpError where
  /-- The text is not JSON. -/
  | notJson
  /-- The text is JSON of another shape. -/
  | wrongShape
deriving DecidableEq, Repr

def DumpError.message : DumpError → String
  | notJson => "Invalid record map JSON: not a JSON document"
  | wrongShape =>
    "Invalid record map JSON: data did not match any variant of untagged enum Envelope"

/-- The block of an entry, if it has one. -/
def entryOfJson? (v : Json) : Option (Option Block) := do
  let fields ← v.fields? ["value"]
  Json.optional? Block.ofJson? (fields.lookup "value")

/-- Keys and blocks of all entries. Every entry has to be readable. -/
def entriesOfMembers? : List (String × Json) → Option (List (String × Option Block))
  | [] => some []
  | (key, v) :: rest => do
    let entry ← entryOfJson? v
    let entries ← entriesOfMembers? rest
    some ((key, entry) :: entries)

def entriesOfJson? : Json → Option (List (String × Option Block))
  | .object members => entriesOfMembers? members
  | _ => none

/-- Of entries with one key the last one. -/
def keepLast : List (String × α) → List (String × α)
  | [] => []
  | (key, v) :: rest =>
    if rest.any (·.1 == key) then keepLast rest else (key, v) :: keepLast rest

/-- The block of an entry under its own id, or under the key if it has none. -/
def blockOfEntry (key : String) (b : Block) : Block :=
  if b.id.isEmpty then { b with id := key } else b

def blocksOfEntries (entries : List (String × Option Block)) : List Block :=
  (keepLast entries).filterMap fun (key, entry) => entry.map (blockOfEntry key)

/-- The blocks of a dump that is not wrapped. -/
def bareBlocks? (v : Json) : Option (List Block) := do
  let fields ← v.fields? ["block"]
  let entries ← Json.defaulted? [] entriesOfJson? (fields.lookup "block")
  some (blocksOfEntries entries)

/-- The blocks of a wrapped dump. -/
def wrappedBlocks? : Json → Option (List Block)
  | .object members =>
    match (Json.object members).fields? ["recordMap"] with
    | some [(_, inner)] => bareBlocks? inner
    | _ => none
  | _ => none

/-- The record map of a value. A wrapped dump is looked for first. -/
def ofJson? (v : Json) : Option RecordMap :=
  ((wrappedBlocks? v).orElse fun _ => bareBlocks? v).map ofList

def ofText (text : String) : Except DumpError RecordMap :=
  match Json.ofText? text with
  | none => .error .notJson
  | some v =>
    match ofJson? v with
    | none => .error .wrongShape
    | some m => .ok m

end RecordMap
end Folio
