/-!
# Folio.Path

Names of files as text. A path is absolute if it starts with a slash. Blank parts and single dots
inside a path do not count, and paths are never simplified otherwise.

* `Path.join`: a path below another one.
* `Path.parent?`: the path without its last part.
* `Path.stem?`: the name of a file without its extension.
-/

namespace Folio
namespace Path

def isAbsolute (path : String) : Bool :=
  path.toList.head? == some '/'

/-- A path below a base. An absolute one replaces the base, an empty base adds nothing. -/
def join (base path : String) : String :=
  if isAbsolute path then path
  else if base.toList.getLast?.all (· == '/') then base ++ path
  else base ++ "/" ++ path

theorem join_ne_empty (base : String) {path : String} (h : path ≠ "") : join base path ≠ "" := by
  unfold join
  split
  · exact h
  · split
    · simp [h]
    · simp

/-- A path written backwards, without the slashes and single dots that it ends in. -/
def trimReversed : List Char → List Char
  | '/' :: rest => trimReversed rest
  | '.' :: '/' :: rest => trimReversed rest
  | s => s

/-- The path without its last part. The root and the empty path have no parent. -/
def parent? (path : String) : Option String :=
  match trimReversed path.toList.reverse with
  | [] => none
  | trimmed =>
    match trimmed.dropWhile (· != '/') with
    | [] => some ""
    | rest =>
      match trimReversed rest with
      | [] => some "/"
      | front => some (String.ofList front.reverse)

/-- The last part of a path. A path that ends in `..` names no file. -/
def name? (path : String) : Option (List Char) :=
  let name := ((trimReversed path.toList.reverse).takeWhile (· != '/')).reverse
  if name.isEmpty || name = ['.'] || name = ['.', '.'] then none else some name

/-- A name up to its last dot, unless that is its first character or there is none. -/
def withoutExtension (name : List Char) : List Char :=
  match (name.reverse.dropWhile (· != '.')) with
  | [] => name
  | [_] => name
  | _ :: front => front.reverse

def stem? (path : String) : Option String :=
  (name? path).map fun name => String.ofList (withoutExtension name)

def parts (path : List Char) : List String :=
  match _h : path.dropWhile (· != '/') with
  | [] => [String.ofList path]
  | _ :: rest => String.ofList (path.takeWhile (· != '/')) :: parts rest
termination_by path.length
decreasing_by
  have := (List.dropWhile_suffix (l := path) (· != '/')).length_le
  rw [_h, List.length_cons] at this
  omega

/-- A path and all paths above it, from the inside out. -/
def ancestors (path : String) : List String :=
  path :: match parent? path with
    | some up => if up.length < path.length then ancestors up else []
    | none => []
termination_by path.length

end Path
end Folio
