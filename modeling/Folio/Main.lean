import Folio.Command.Run

/-!
# Folio.Main

The program on the system at hand.
-/

namespace Folio

/-- The reason of a failed operation on files. -/
def fileErrorOf : IO.Error → FileError
  | .noFileOrDirectory .. => .notFound
  | .alreadyExists .. => .alreadyExists
  | e => .other (toString e)

/-- An operation on files with its failure as a value. -/
def attempt (action : IO α) : IO (Except FileError α) := do
  try
    return .ok (← action)
  catch e =>
    return .error (fileErrorOf e)

instance : Host IO where
  cwd := do return (← IO.currentDir).toString
  envVar? name := IO.getEnv name
  pathExists path := do
    return (← attempt (IO.FS.realPath path)).isOk
  readFile path := attempt (IO.FS.readFile path)
  writeFile path text := attempt (IO.FS.writeFile path text)
  createDirAll path := attempt (IO.FS.createDirAll path)
  print text := IO.print text
  report line := IO.eprintln line

end Folio

def main (args : List String) : IO UInt32 := do
  return UInt32.ofNat (← Folio.Run.run args)
