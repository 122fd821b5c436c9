import Folio.Command.Arguments
import Folio.Config
import Folio.Html.Page
import Folio.Node.Json
import Folio.RecordMap.Dump

/-!
# Folio.Command.Run

The two commands of the program. `render` makes a page of each dump and writes it to the output
directory; a dump that fails does not keep the others from being rendered. `tree` prints the tree
of one dump as JSON.

* `Run.pageOf`, `Run.treeOf`: what is made of the text of a dump.
* `Run.run`: the program, from its arguments to its exit code.
-/

namespace Folio

/-- Why a command or one of its files failed. -/
inductive RunError where
  | config (e : ConfigError)
  | file (e : FileError)
  | dump (e : RecordMap.DumpError)
  | assembly (e : AssemblyError)
  /-- No dump is named; the text says how the arguments would name it. -/
  | noDump (operand : String)
  | noRoot
  | severalRoots (ids : List String)
  | filesFailed (failed total : Nat)
deriving DecidableEq, Repr

def RunError.message : RunError → String
  | config e => e.message
  | file e => e.message
  | dump e => e.message
  | assembly e => e.message
  | noDump operand => s!"no record dump given, pass {operand} or set input.records"
  | noRoot => "no root page found in dump, pass --root"
  | severalRoots ids =>
    s!"dump has {ids.length} root pages (" ++ ", ".intercalate ids ++ "), pass --root"
  | filesFailed failed total => s!"{failed} of {total} files failed"

namespace Run

/-! ## Dumps -/

/-- The given root, or the only page whose parent is not in the dump. -/
def rootOf (records : RecordMap) (given : Option String) : Except RunError String :=
  match given with
  | some id => .ok id
  | none =>
    match records.rootCandidates with
    | [id] => .ok id
    | [] => .error .noRoot
    | ids => .error (.severalRoots ids)

def treeOf (c : Config) (text : String) : Except RunError Assembled :=
  match RecordMap.ofText text with
  | .error e => .error (.dump e)
  | .ok records =>
    match rootOf records c.rootId with
    | .error e => .error e
    | .ok root =>
      let assembler : Assembler :=
        { records, children := .ofRecords records, policy := c.missingChildren }
      match assembler.assemble root with
      | .error e => .error (.assembly e)
      | .ok tree => .ok tree

/-- How the pages of a run are rendered. -/
def rendererOf (c : Config) : Renderer where
  defaultColor := c.defaultColor
  standalone := c.standalone

/-- The page of a dump, with all warnings. -/
def pageOf (c : Config) (text : String) : Except RunError Page :=
  match treeOf c text with
  | .error e => .error e
  | .ok tree =>
    let page := (rendererOf c).render tree.root
    .ok { page with warnings := tree.warnings ++ page.warnings }

def pageName (path : String) : String :=
  (Path.stem? path).getD "page" ++ ".html"

/-! ## Commands -/

variable {m : Type → Type} [Monad m] [Host m]

/-- The path that a dump was rendered to, and the warnings about it. -/
structure Rendering where
  target : String
  warnings : List Warning

def renderFile (c : Config) (path : String) : m (Except RunError Rendering) := do
  match ← Host.readFile path with
  | .error e => pure (.error (.file e))
  | .ok text =>
    match pageOf c text with
    | .error e => pure (.error e)
    | .ok page =>
      let target := Path.join c.outputDir (pageName path)
      match ← Host.writeFile target page.html with
      | .error e => pure (.error (.file e))
      | .ok () => pure (.ok ⟨target, page.warnings⟩)

def renderFiles (c : Config) : List String → m (List (String × Except RunError Rendering))
  | [] => pure []
  | path :: rest => do
    let outcome ← renderFile c path
    let others ← renderFiles c rest
    pure ((path, outcome) :: others)

def reportWarnings (path : String) : List Warning → m Unit
  | [] => pure ()
  | w :: rest => do
    Host.report s!"warning {path}: {w.message}"
    reportWarnings path rest

/-- Reports what became of dumps, and gives the number of those that failed. -/
def reportOutcomes : List (String × Except RunError Rendering) → m Nat
  | [] => pure 0
  | (path, .ok r) :: rest => do
    reportWarnings path r.warnings
    Host.report s!"rendered {path} -> {r.target}"
    reportOutcomes rest
  | (path, .error e) :: rest => do
    Host.report s!"failed {path}: {e.message}"
    let failed ← reportOutcomes rest
    pure (failed + 1)

/-- The settings that a request to render puts in front of the file. -/
def renderOverrides (r : RenderRequest) : Overrides where
  rootId := r.rootId
  outputDir := r.outputDir
  standalone := if r.standalone then some true else none
  missingChildren := if r.strict then some .fail else none

def renderWith (c : Config) (files : List String) : m (Except RunError Unit) := do
  match ← Host.createDirAll c.outputDir with
  | .error e => pure (.error (.file e))
  | .ok () =>
    Host.report s!"output {c.outputDir}"
    let outcomes ← renderFiles c files
    let failed ← reportOutcomes outcomes
    pure (if failed = 0 then .ok () else .error (.filesFailed failed outcomes.length))

def render (r : RenderRequest) : m (Except RunError Unit) := do
  match ← Config.load r.config (renderOverrides r) with
  | .error e => pure (.error (.config e))
  | .ok c =>
    match if r.files.isEmpty then c.records.toList else r.files with
    | [] => pure (.error (.noDump "FILES"))
    | files => renderWith c files

/-- The settings that a request for a tree puts in front of the file. -/
def treeOverrides (r : TreeRequest) : Overrides where
  records := r.file
  rootId := r.rootId

def tree (r : TreeRequest) : m (Except RunError Unit) := do
  match ← Config.load r.config (treeOverrides r) with
  | .error e => pure (.error (.config e))
  | .ok c =>
    match c.records with
    | none => pure (.error (.noDump "FILE"))
    | some path =>
      match ← Host.readFile path with
      | .error e => pure (.error (.file e))
      | .ok text =>
        match treeOf c text with
        | .error e => pure (.error e)
        | .ok t =>
          reportWarnings path t.warnings
          Host.print (t.root.toJson.pretty ++ "\n")
          pure (.ok ())

def usage : String :=
  "Usage: nast [-v] render [FILES] [-r ROOT] [-o DIR] [--standalone] [--strict] [-c CONFIG]\n" ++
  "       nast [-v] tree [FILE] [-r ROOT] [-c CONFIG]"

def version : String := "nast 0.1.24"

/-- The exit code for the outcome of a command, which is reported if it is an error. -/
def finish (outcome : Except RunError Unit) : m Nat := do
  match outcome with
  | .ok () => pure 0
  | .error e =>
    Host.report s!"Error: {e.message}"
    pure 1

/-- The program: its exit code is 2 if it does not understand its arguments, and 1 if a command
fails. -/
def run (args : List String) : m Nat := do
  match Invocation.ofArguments? args with
  | none =>
    Host.report usage
    pure 2
  | some .version =>
    Host.print (version ++ "\n")
    pure 0
  | some .help =>
    Host.print (usage ++ "\n")
    pure 0
  | some (.render r) => finish (← render r)
  | some (.tree r) => finish (← tree r)

end Run
end Folio
