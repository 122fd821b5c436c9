import Folio.Assembly
import Folio.Config.Expansion
import Folio.Toml.Statement

/-!
# Folio.Config.File

What a configuration file says. It has four sections, each of which may be missing, and so may each
field of a section. Sections and fields that are not listed are ignored.

* `ConfigFile.ofText?`: the settings of a text.
* `ConfigFile.expand`: the settings with references to the environment replaced.
-/

namespace Folio

structure ConfigFile where
  records : Option String := none
  rootId : Option String := none
  outputDir : Option String := none
  standalone : Option Bool := none
  defaultColor : String := ""
  missingChildren : MissingChildPolicy := .skip
deriving Repr

/-- A variable of the environment that a setting refers to and that is not set. -/
structure UnsetVariable where
  field : String
  name : String
deriving DecidableEq, Repr

namespace ConfigFile

def policyOfName? : String → Option MissingChildPolicy
  | "skip" => some .skip
  | "fail" => some .fail
  | _ => none

/-- A policy: its name, or a table with its name as the only key and nothing under it. -/
def policyOfToml? : Toml → Option MissingChildPolicy
  | .string name => policyOfName? name
  | .table [(name, .table [])] => policyOfName? name
  | .table [(name, .array [])] => policyOfName? name
  | _ => none

/-- The fields of a section, none if it is missing. -/
def section? (names : List String) : Option Toml → Option (List (String × Toml))
  | none => some []
  | some v => v.fields? names

def ofToml? (document : Toml) : Option ConfigFile := do
  let sections ← document.fields? []
  let input ← section? ["records", "root_id"] (sections.lookup "input")
  let output ← section? ["dir", "standalone"] (sections.lookup "output")
  let render ← section? ["default_color"] (sections.lookup "render")
  let assemble ← section? ["missing_children"] (sections.lookup "assemble")
  some {
    records := ← Toml.optional? Toml.string? (input.lookup "records")
    rootId := ← Toml.optional? Toml.string? (input.lookup "root_id")
    outputDir := ← Toml.optional? Toml.string? (output.lookup "dir")
    standalone := ← Toml.optional? Toml.bool? (output.lookup "standalone")
    defaultColor := (← Toml.optional? Toml.string? (render.lookup "default_color")).getD ""
    missingChildren :=
      (← Toml.optional? policyOfToml? (assemble.lookup "missing_children")).getD .skip }

def ofText? (text : String) : Option ConfigFile := do
  ofToml? (← Toml.ofText? text)

/-- The settings that may refer to the environment, in the order in which they are looked at. -/
def expandable (f : ConfigFile) : List String :=
  f.records.toList ++ f.rootId.toList ++ f.outputDir.toList

def variableNames (f : ConfigFile) : List String :=
  f.expandable.flatMap Expansion.variableNames

/-- A setting with its references replaced. -/
def expandField (lookup : String → Option String) (field : String) :
    Option String → Except UnsetVariable (Option String)
  | none => .ok none
  | some s =>
    match Expansion.expand lookup s with
    | .ok s => .ok (some s)
    | .error name => .error ⟨field, name⟩

/-- The settings with their references replaced. -/
def expand (lookup : String → Option String) (f : ConfigFile) :
    Except UnsetVariable ConfigFile := do
  let records ← expandField lookup "input.records" f.records
  let rootId ← expandField lookup "input.root_id" f.rootId
  let outputDir ← expandField lookup "output.dir" f.outputDir
  .ok { f with records, rootId, outputDir }

end ConfigFile
end Folio
