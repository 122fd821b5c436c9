import Folio.FileTree

/-!
# Folio.Host

What a program may ask of the system that it runs on: files, the environment, and two channels for
output. Programs are written for any host; `World` is the one whose whole state is a value.
-/

namespace Folio

/-- A monad with access to a system. -/
class Host (m : Type → Type) where
  cwd : m String
  envVar? (name : String) : m (Option String)
  pathExists (path : String) : m Bool
  readFile (path : String) : m (Except FileError String)
  writeFile (path text : String) : m (Except FileError Unit)
  createDirAll (path : String) : m (Except FileError Unit)
  /-- Writes a part of the result. -/
  print (text : String) : m Unit
  /-- Writes a line about what happens. -/
  report (line : String) : m Unit

/-- A system as a value. -/
structure World where
  files : FileTree := {}
  cwd : String := "/"
  environment : List (String × String) := []
  /-- The result written so far. -/
  printed : String := ""
  /-- The lines reported so far, each with its end. -/
  reported : String := ""

namespace World

/-- An operation that changes the files unless it fails. -/
def changeFiles (f : World → Except FileError FileTree) : StateM World (Except FileError Unit) :=
  fun w =>
    match f w with
    | .ok files => (.ok (), { w with files })
    | .error e => (.error e, w)

instance : Host (StateM World) where
  cwd := fun w => (w.cwd, w)
  envVar? name := fun w => (w.environment.lookup name, w)
  pathExists path := fun w => (w.files.contains w.cwd path, w)
  readFile path := fun w => (w.files.read w.cwd path, w)
  writeFile path text := changeFiles fun w => w.files.write w.cwd path text
  createDirAll path := changeFiles fun w => w.files.createDirAll w.cwd path
  print text := fun w => ((), { w with printed := w.printed ++ text })
  report line := fun w => ((), { w with reported := w.reported ++ line ++ "\n" })

section

variable (w : World)

@[simp] theorem run_pure (a : α) : (pure a : StateM World α) w = (a, w) := rfl

@[simp] theorem run_bind (x : StateM World α) (f : α → StateM World β) :
    (x >>= f) w = f (x w).1 (x w).2 := rfl

@[simp] theorem run_cwd : (Host.cwd : StateM World String) w = (w.cwd, w) := rfl

@[simp] theorem run_envVar? (name : String) :
    (Host.envVar? name : StateM World (Option String)) w = (w.environment.lookup name, w) := rfl

@[simp] theorem run_pathExists (path : String) :
    (Host.pathExists path : StateM World Bool) w = (w.files.contains w.cwd path, w) := rfl

@[simp] theorem run_readFile (path : String) :
    (Host.readFile path : StateM World (Except FileError String)) w =
      (w.files.read w.cwd path, w) := rfl

@[simp] theorem run_writeFile (path text : String) :
    (Host.writeFile path text : StateM World (Except FileError Unit)) w =
      match w.files.write w.cwd path text with
      | .ok files => (.ok (), { w with files })
      | .error e => (.error e, w) := rfl

@[simp] theorem run_createDirAll (path : String) :
    (Host.createDirAll path : StateM World (Except FileError Unit)) w =
      match w.files.createDirAll w.cwd path with
      | .ok files => (.ok (), { w with files })
      | .error e => (.error e, w) := rfl

@[simp] theorem run_report (line : String) :
    (Host.report line : StateM World Unit) w =
      ((), { w with reported := w.reported ++ line ++ "\n" }) := rfl

end

end World
end Folio
