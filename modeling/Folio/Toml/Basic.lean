/-!
# Folio.Toml.Basic

Values of the configuration format. Doubles and points in time keep their text: configurations have
no use for their meaning.
-/

namespace Folio

inductive Toml where
  | string (s : String)
  | integer (n : Int)
  | float (text : String)
  | bool (b : Bool)
  | dateTime (text : String)
  | array (elements : List Toml)
  | table (members : List (String × Toml))
deriving Repr, Inhabited

namespace Toml

def string? : Toml → Option String
  | string s => some s
  | _ => none

def bool? : Toml → Option Bool
  | bool b => some b
  | _ => none

/-- The fields of a section that are present. A section is a table, or an array of its leading
fields; either may hold more than the fields. -/
def fields? (names : List String) : Toml → Option (List (String × Toml))
  | table members => some members
  | array elements => some (names.zip elements)
  | _ => none

/-- The value of a field that may be absent. -/
def optional? (decode : Toml → Option α) : Option Toml → Option (Option α)
  | none => some none
  | some v => (decode v).map some

end Toml
end Folio
