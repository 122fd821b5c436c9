import Folio.Config.File
import Folio.Host

/-!
# Folio.Config

The configuration of a run. Settings come from a file, the command line goes before the file, and
only the outcome is checked. Paths of a file are seen from its directory, paths of the command line
from the working directory. Without a given file the nearest `nast.toml` at or above the working
directory counts; without any the defaults do.

* `Config.ofFile`: the configuration of the text of a file.
* `Config.load`: the configuration of a run.
-/

namespace Folio

/-- The settings of a run, with all paths resolved. -/
structure Config where
  records : Option String := none
  rootId : Option String := none
  outputDir : String
  standalone : Bool := false
  defaultColor : String := ""
  missingChildren : MissingChildPolicy := .skip
  /-- The file that the settings come from. -/
  file : Option String := none
  /-- The output directory as the file has it, before it was resolved. -/
  givenOutputDir : Option String := none
deriving Repr

structure Overrides where
  records : Option String := none
  rootId : Option String := none
  outputDir : Option String := none
  standalone : Option Bool := none
  missingChildren : Option MissingChildPolicy := none
deriving Repr

inductive ConfigError where
  | fileNotFound (path : String)
  | unreadable (e : FileError)
  /-- The text of the file is not a configuration. -/
  | malformed
  | unsetVariable (v : UnsetVariable)
  | emptyOutputDir
  | invalidRootId (id : String)
deriving DecidableEq, Repr

def ConfigError.message : ConfigError → String
  | fileNotFound path => s!"Configuration file not found: {path}"
  | unreadable e => "I/O error: " ++ e.message
  | malformed => "TOML parse error: not a configuration"
  | unsetVariable v =>
    s!"Environment variable error in {v.field}: $" ++ "\x7b" ++ v.name ++ "\x7d not set"
  | emptyOutputDir => "Configuration error: output.dir cannot be empty"
  | invalidRootId id =>
    s!"Configuration error: input.root_id must be a 32- or 36-character block id, got '{id}'"

namespace Config

def isHex (c : Char) : Bool :=
  (Text.hexDigit? c).isSome

/-- Whether characters are dashes where a dashed id has them, and digits elsewhere, from a position
on. -/
def isDashedHex (position : Nat) : List Char → Bool
  | [] => true
  | c :: rest =>
    (if [8, 13, 18, 23].contains position then c == '-' else isHex c) &&
      isDashedHex (position + 1) rest

/-- A block id of hexadecimal digits in either spelling. -/
def isBlockId (id : String) : Bool :=
  let cs := id.toList
  (cs.length == 32 && cs.all isHex) || (cs.length == 36 && isDashedHex 0 cs)

def fileName : String := "nast.toml"

def defaultDir : String := "site"

/-- The configuration of no file, with paths seen from a base. -/
def defaults (base : String) : Config where
  outputDir := Path.join base defaultDir

/-- The configuration of the settings of a file, with paths seen from its directory. -/
def resolve (path : String) (f : ConfigFile) : Config :=
  let base := (Path.parent? path).getD "."
  { records := f.records.map (Path.join base)
    rootId := f.rootId
    outputDir := Path.join base (f.outputDir.getD defaultDir)
    standalone := f.standalone.getD false
    defaultColor := f.defaultColor
    missingChildren := f.missingChildren
    file := some path
    givenOutputDir := f.outputDir }

def ofFile (lookup : String → Option String) (path text : String) : Except ConfigError Config :=
  match ConfigFile.ofText? text with
  | none => .error .malformed
  | some f =>
    match f.expand lookup with
    | .error v => .error (.unsetVariable v)
    | .ok f => .ok (resolve path f)

/-- The configuration with the settings of the command line in front. -/
def override (c : Config) (o : Overrides) : Config :=
  { c with
    records := o.records.or c.records
    rootId := o.rootId.or c.rootId
    outputDir := o.outputDir.getD c.outputDir
    standalone := o.standalone.getD c.standalone
    missingChildren := o.missingChildren.getD c.missingChildren }

/-- Refuses an empty output directory and a root that is no block id. -/
def check (c : Config) : Except ConfigError Config :=
  if c.givenOutputDir == some "" || c.outputDir.isEmpty then .error .emptyOutputDir
  else
    match c.rootId with
    | some id => if isBlockId id then .ok c else .error (.invalidRootId id)
    | none => .ok c

variable {m : Type → Type} [Monad m] [Host m]

/-- The values of variables of the environment. -/
def bindings : List String → m (List (String × String))
  | [] => pure []
  | name :: rest => do
    let value ← Host.envVar? name
    let others ← bindings rest
    pure (match value with
      | some v => (name, v) :: others
      | none => others)

def loadFile (path : String) : m (Except ConfigError Config) := do
  match ← Host.readFile path with
  | .error e => pure (.error (.unreadable e))
  | .ok text =>
    let names := ((ConfigFile.ofText? text).map (·.variableNames)).getD []
    let values ← bindings names
    pure (ofFile (fun name => values.lookup name) path text)

def firstExisting? : List String → m (Option String)
  | [] => pure none
  | path :: rest => do
    if ← Host.pathExists path then pure (some path) else firstExisting? rest

/-- The configuration before the command line: of the given file, of the nearest one, or the
defaults. -/
def loadBase (path : Option String) : m (Except ConfigError Config) := do
  match path with
  | some path =>
    if ← Host.pathExists path then loadFile path else pure (.error (.fileNotFound path))
  | none =>
    let cwd ← Host.cwd
    match ← firstExisting? ((Path.ancestors cwd).map (Path.join · fileName)) with
    | some found => loadFile found
    | none => pure (.ok (defaults cwd))

def load (path : Option String) (o : Overrides) : m (Except ConfigError Config) := do
  match ← loadBase path with
  | .error e => pure (.error e)
  | .ok c => pure (check (c.override o))

end Config
end Folio
