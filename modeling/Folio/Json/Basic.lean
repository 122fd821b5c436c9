/-!
# Folio.Json.Basic

JSON values. Integers that fit a machine word, signed or unsigned, stay integers; every other
number is a double. An object keeps its members in order, and a key may repeat.

* `Json.member?`: look-up, where the last member of a key counts.
* `Json.canonical`: every object sorted by key, with one member for each key.
-/

namespace Folio

inductive Json.Number where
  | int (n : Int)
  | float (x : Float)
deriving Repr

inductive Json where
  | null
  | bool (b : Bool)
  | number (n : Json.Number)
  | string (s : String)
  | array (elements : List Json)
  | object (members : List (String × Json))
deriving Repr, Inhabited

namespace Json

def Number.toFloat : Number → Float
  | .int n => Float.ofInt n
  | .float x => x

/-- The last value of a key among members. -/
def lastOf? (key : String) : List (String × Json) → Option Json
  | [] => none
  | (k, v) :: rest =>
    match lastOf? key rest with
    | some found => some found
    | none => if k = key then some v else none

def member? : Json → String → Option Json
  | object members, key => lastOf? key members
  | _, _ => none

def string? : Json → Option String
  | string s => some s
  | _ => none

def float? : Json → Option Float
  | number n => some n.toFloat
  | _ => none

def bool? : Json → Option Bool
  | bool b => some b
  | _ => none

def elements? : Json → Option (List Json)
  | array elements => some elements
  | _ => none

/-- Puts a member at its place among members sorted by key, in place of one with its key. -/
def insertSorted (key : String) (value : Json) : List (String × Json) → List (String × Json)
  | [] => [(key, value)]
  | (k, v) :: rest =>
    if key < k then (key, value) :: (k, v) :: rest
    else if key = k then (key, value) :: rest
    else (k, v) :: insertSorted key value rest

/-- Members sorted by key; the last value of a key stays. -/
def sortMembers (members : List (String × Json)) : List (String × Json) :=
  members.foldl (fun sorted m => insertSorted m.1 m.2 sorted) []

mutual

/-- The same value with each object sorted by key and each key once. -/
def canonical : Json → Json
  | array elements => array (canonicalAll elements)
  | object members => object (sortMembers (canonicalMembers members))
  | null => null
  | bool b => bool b
  | number n => number n
  | string s => string s

def canonicalAll : List Json → List Json
  | [] => []
  | v :: rest => canonical v :: canonicalAll rest

def canonicalMembers : List (String × Json) → List (String × Json)
  | [] => []
  | (k, v) :: rest => (k, canonical v) :: canonicalMembers rest

end

end Json
end Folio
