import Folio.Path

/-!
# Folio.FileTree

Files and directories as a value. A place in the tree is the list of names from the root to it.
Paths are followed part by part, and every part but the last has to be a directory.

* `FileTree.read`, `FileTree.write`, `FileTree.createDirAll`: what a program does with files.
-/

namespace Folio

inductive FileError where
  | notFound
  | alreadyExists
  | notDirectory
  | isDirectory
  /-- A reason that only the system knows. -/
  | other (message : String)
deriving DecidableEq, Repr

def FileError.message : FileError → String
  | notFound => "No such file or directory (os error 2)"
  | alreadyExists => "File exists (os error 17)"
  | notDirectory => "Not a directory (os error 20)"
  | isDirectory => "Is a directory (os error 21)"
  | other message => message

/-- What a place holds. -/
inductive FileEntry where
  | directory
  | file (text : String)
deriving DecidableEq, Repr

/-- The places that hold something. The root always is a directory. -/
structure FileTree where
  entries : List (List String × FileEntry) := []

namespace FileTree

/-- What a place holds. -/
def at? (t : FileTree) (place : List String) : Option FileEntry :=
  if place.isEmpty then some .directory else t.entries.lookup place

def put (t : FileTree) (place : List String) (entry : FileEntry) : FileTree :=
  ⟨(place, entry) :: t.entries.filter (·.1 != place)⟩

/-- The place that parts of a path lead to from a place. The last one need not hold anything. -/
def walk (t : FileTree) (place : List String) : List String → Except FileError (List String)
  | [] => .ok place
  | part :: rest =>
    match t.at? place with
    | none => .error .notFound
    | some (.file _) => .error .notDirectory
    | some .directory =>
      if part = "" || part = "." then t.walk place rest
      else if part = ".." then t.walk place.dropLast rest
      else t.walk (place ++ [part]) rest

/-- The place of a path, seen from a working directory. -/
def locate (t : FileTree) (cwd path : String) : Except FileError (List String) :=
  if path.isEmpty then .error .notFound
  else t.walk [] (Path.parts (Path.join cwd path).toList)

/-- What a path leads to. -/
def find (t : FileTree) (cwd path : String) : Except FileError FileEntry :=
  match t.locate cwd path with
  | .error e => .error e
  | .ok place =>
    match t.at? place with
    | some entry => .ok entry
    | none => .error .notFound

def contains (t : FileTree) (cwd path : String) : Bool :=
  match t.find cwd path with
  | .ok _ => true
  | .error _ => false

def isDirectory (t : FileTree) (cwd path : String) : Bool :=
  match t.find cwd path with
  | .ok .directory => true
  | _ => false

def read (t : FileTree) (cwd path : String) : Except FileError String :=
  match t.find cwd path with
  | .ok (.file text) => .ok text
  | .ok .directory => .error .isDirectory
  | .error e => .error e

/-- Writes a file, in place of one that is there. Its directory has to be there. -/
def write (t : FileTree) (cwd path text : String) : Except FileError FileTree :=
  match t.locate cwd path with
  | .error e => .error e
  | .ok place =>
    match t.at? place, t.at? place.dropLast with
    | some .directory, _ => .error .isDirectory
    | some (.file _), _ => .ok (t.put place (.file text))
    | none, some .directory => .ok (t.put place (.file text))
    | none, some (.file _) => .error .notDirectory
    | none, none => .error .notFound

def withoutSlashes (path : String) : String :=
  String.ofList (path.toList.reverse.dropWhile (· == '/')).reverse

def createDir (t : FileTree) (cwd path : String) : Except FileError FileTree :=
  let bare := withoutSlashes path
  match t.locate cwd (if bare.isEmpty then path else bare) with
  | .error e => .error e
  | .ok place =>
    match t.at? place, t.at? place.dropLast with
    | some _, _ => .error .alreadyExists
    | none, some .directory => .ok (t.put place .directory)
    | none, some (.file _) => .error .notDirectory
    | none, none => .error .notFound

/-- Creates a directory, unless it is there already. -/
def ensureDir (t : FileTree) (cwd path : String) : Except FileError FileTree :=
  match t.createDir cwd path with
  | .ok t => .ok t
  | .error e => if t.isDirectory cwd path then .ok t else .error e

/-- Creates the first of some paths, of which each one lies in the next, and before it the others
as far as they are missing. -/
def createDirs (t : FileTree) (cwd : String) : List String → Except FileError FileTree
  | [] => .error (.other "failed to create whole tree")
  | path :: above =>
    if path.isEmpty then .ok t
    else
      match t.createDir cwd path with
      | .ok t => .ok t
      | .error .notFound =>
        match t.createDirs cwd above with
        | .ok t => t.ensureDir cwd path
        | .error e => .error e
      | .error e => if t.isDirectory cwd path then .ok t else .error e

/-- Creates a directory and all directories above it that are missing. -/
def createDirAll (t : FileTree) (cwd path : String) : Except FileError FileTree :=
  t.createDirs cwd (Path.ancestors path)

end FileTree
end Folio
