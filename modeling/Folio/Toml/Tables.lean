import Folio.Toml.Basic

/-!
# Folio.Toml.Tables

Tables from headers and assignments. A table comes about in one of three ways: by a header of its
own, as the parent of another header, or as the parent of a dotted key. A header may give its own
assignments to a table that so far was only a parent of headers; dotted keys may add only to tables
that dotted keys have made, though they may lead there through any other table without a header of
its own and through the last table of an array; values, and so tables in braces, are closed.
Everything else that names a key twice is an error.

* `Items.assign?`: a value under a dotted key.
* `Items.run?`: one statement.
* `Items.ofStatements?`, `Items.inlineTable?`: whole tables.
-/

namespace Folio
namespace Toml

inductive Statement where
  | header (path : List String)
  | arrayHeader (path : List String)
  | assign (path : List String) (value : Toml)
deriving Repr

/-- How a table came about. -/
inductive Origin where
  | header
  | parent
  | dotted
deriving DecidableEq, Repr

/-- A part of a document that is being built. -/
inductive Item where
  | value (v : Toml)
  | table (origin : Origin) (members : List (String × Item))
  /-- The tables of an array of headers, the last one apart, and the others with the last first. -/
  | tables (done : List (List (String × Item))) (last : List (String × Item))
deriving Repr

abbrev Items := List (String × Item)

namespace Items

/-- Changes the item of a key, which may be missing; a new key goes to the end. -/
def change? (key : String) (f : Option Item → Option Item) : Items → Option Items
  | [] => do some [(key, ← f none)]
  | (k, item) :: rest =>
    if k = key then do some ((k, ← f (some item)) :: rest)
    else do some ((k, item) :: (← change? key f rest))

/-- Puts a value under a dotted key. -/
def assign? (v : Toml) : List String → Items → Option Items
  | [], _ => none
  | [key], items =>
    change? key (fun
      | none => some (.value v)
      | some _ => none) items
  | key :: rest, items =>
    change? key (fun
      | none => (assign? v rest []).map (.table .dotted)
      | some (.table origin members) =>
        if origin = .header || (rest.length = 1 && origin ≠ .dotted) then none
        else (assign? v rest members).map (.table origin)
      | some (.tables done last) =>
        if rest.length = 1 then none else (assign? v rest last).map (.tables done)
      | some (.value _) => none) items

/-- Changes the members of the table of a header path. Missing tables on the way are made. -/
def within? (f : Items → Option Items) : List String → Items → Option Items
  | [], items => f items
  | key :: rest, items =>
    change? key (fun
      | none => (within? f rest []).map (.table .parent)
      | some (.table origin members) => (within? f rest members).map (.table origin)
      | some (.tables done last) => (within? f rest last).map (.tables done)
      | some (.value _) => none) items

def openTable? : Option Item → Option Item
  | none => some (.table .header [])
  | some (.table .parent members) => some (.table .header members)
  | some _ => none

/-- Opens one more table of an array. -/
def openElement? : Option Item → Option Item
  | none => some (.tables [] [])
  | some (.tables done last) => some (.tables (last :: done) [])
  | some _ => none

/-- Opens what a header names. -/
def open? (f : Option Item → Option Item) (path : List String) (items : Items) : Option Items := do
  within? (change? (← path.getLast?) f) path.dropLast items

/-- The document after one more statement, and the path of the header that is open then. -/
def run? : Items × List String → Statement → Option (Items × List String)
  | (items, _), .header path => do some (← open? openTable? path items, path)
  | (items, _), .arrayHeader path => do some (← open? openElement? path items, path)
  | (items, current), .assign path v => do some (← within? (assign? v path) current items, current)

end Items

mutual

def Item.toToml : Item → Toml
  | .value v => v
  | .table _ members => .table (Item.membersToToml members)
  | .tables done last => .array (Item.tablesToToml done [.table (Item.membersToToml last)])

def Item.membersToToml : List (String × Item) → List (String × Toml)
  | [] => []
  | (key, item) :: rest => (key, item.toToml) :: Item.membersToToml rest

/-- The finished form of tables, of which the last comes first, in front of others. -/
def Item.tablesToToml : List (List (String × Item)) → List Toml → List Toml
  | [], others => others
  | members :: rest, others =>
    Item.tablesToToml rest (.table (Item.membersToToml members) :: others)

end

/-- The table of the assignments in braces. -/
def Items.inlineTable? (assignments : List (List String × Toml)) : Option Toml := do
  let items ← assignments.foldlM (fun items (path, v) => Items.assign? v path items) []
  some (.table (Item.membersToToml items))

def Items.ofStatements? (statements : List Statement) : Option Toml := do
  let (items, _) ← statements.foldlM Items.run? ([], [])
  some (.table (Item.membersToToml items))

end Toml
end Folio
