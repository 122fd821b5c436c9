import Folio.Json.Basic

/-!
# Folio.Json.Fields

Records in JSON. A record has fields in a fixed order and is written either as an object, with a
member for each field that is set, or as an array of the leading fields. In an object a known field
stands at most once and other members are ignored; an array holds no more than the fields.

* `Json.fields?`: the fields of a record that are present.
* `text?`, `optional?`, …: the value of one field, present or not.
-/

namespace Folio
namespace Json

/-- The fields that a record sets. -/
def fields? (names : List String) : Json → Option (List (String × Json))
  | object members =>
    let known := members.filter fun m => names.contains m.1
    if (known.map (·.1)).Nodup then some known else none
  | array elements => if elements.length ≤ names.length then some (names.zip elements) else none
  | _ => none

/-- A field that may be absent or `null`. -/
def optional? (decode : Json → Option α) : Option Json → Option (Option α)
  | none => some none
  | some null => some none
  | some v => (decode v).map some

/-- A field that may be absent, but not `null`. -/
def defaulted? (default : α) (decode : Json → Option α) : Option Json → Option α
  | none => some default
  | some v => decode v

/-- A list of which each element can be read. -/
def list? (decode : Json → Option α) : Json → Option (List α)
  | array elements => elements.mapM decode
  | _ => none

/-- The members of an object, sorted and each key once. -/
def members? : Json → Option (List (String × Json))
  | object members => some (sortMembers (canonicalMembers members))
  | _ => none

/-- An integer from `low` up to but not including `high`. -/
def intIn? (low high : Int) : Json → Option Int
  | number (.int n) => if low ≤ n && n < high then some n else none
  | _ => none

end Json
end Folio
