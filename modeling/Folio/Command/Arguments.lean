/-!
# Folio.Command.Arguments

Arguments of the command line. An option has a long name (`--root`) and perhaps a letter (`-r`).
Its value is the next argument or is attached (`--root=x`, `-rx`, `-r=x`); letters without a value
can be joined (`-vh`). Everything else is an operand, and so is everything after `--`.

* `Arguments.read?`: options and operands in order.
* `Invocation.ofArguments?`: what the program is asked to do.
-/

namespace Folio

structure OptionSpec where
  long : String
  letter : Option Char
  takesValue : Bool

inductive Argument where
  | option (long value : String)
  | flag (long : String)
  | operand (text : String)
deriving DecidableEq, Repr

namespace Arguments

/-- Whether an argument can be the value of the option before it. -/
def isValue (arg : String) : Bool :=
  arg == "-" || arg.toList.head? != some '-'

def long? (specs : List OptionSpec) (name : String) : Option OptionSpec :=
  specs.find? (·.long == name)

def letter? (specs : List OptionSpec) (c : Char) : Option OptionSpec :=
  specs.find? (·.letter == some c)

/-- Whether nothing behind an option counts any more. -/
def endsReading (long : String) : Bool :=
  long == "help" || long == "version"

/-- The joined letters of one argument: the options read, and the one that still needs a value. -/
def letters? (specs : List OptionSpec) : List Char → Option (List Argument × Option String)
  | [] => some ([], none)
  | c :: rest => do
    let spec ← letter? specs c
    if endsReading spec.long then some ([.flag spec.long], none)
    else if spec.takesValue then
      match rest with
      | [] => some ([], some spec.long)
      | '=' :: value => some ([.option spec.long (String.ofList value)], none)
      | value => some ([.option spec.long (String.ofList value)], none)
    else
      let (others, open?) ← letters? specs rest
      some (.flag spec.long :: others, open?)

/-- One argument that starts with two dashes, without them. -/
def longOption? (specs : List OptionSpec) (body : List Char) :
    Option (List Argument × Option String) := do
  let name := String.ofList (body.takeWhile (· != '='))
  let spec ← long? specs name
  match body.dropWhile (· != '='), spec.takesValue with
  | [], true => some ([], some name)
  | [], false => some ([.flag name], none)
  | _ :: value, true => some ([.option name (String.ofList value)], none)
  | _ :: _, false => none

/-- The options and operands of a list of arguments. `waiting` is the option that needs the next
one as its value. Nothing is read behind a flag that asks for help. -/
def read? (specs : List OptionSpec) (waiting : Option String) : List String → Option (List Argument)
  | [] => if waiting.isSome then none else some []
  | arg :: rest =>
    match waiting with
    | some long =>
      if isValue arg then do some (.option long arg :: (← read? specs none rest)) else none
    | none =>
      if isValue arg then do some (.operand arg :: (← read? specs none rest))
      else if arg == "--" then some (rest.map .operand)
      else do
        let (args, waiting) ← match arg.toList with
          | '-' :: '-' :: body => longOption? specs body
          | _ :: body => letters? specs body
          | [] => none
        if args.contains (.flag "help") then some args
        else some (args ++ (← read? specs waiting rest))

end Arguments

/-- Dumps to render to files. -/
structure RenderRequest where
  files : List String
  rootId : Option String
  outputDir : Option String
  config : Option String
  standalone : Bool
  strict : Bool
deriving DecidableEq, Repr

/-- A dump to print the tree of. -/
structure TreeRequest where
  file : Option String
  rootId : Option String
  config : Option String
deriving DecidableEq, Repr

/-- What the program is asked to do. -/
inductive Invocation where
  | version
  | help
  | render (request : RenderRequest)
  | tree (request : TreeRequest)
deriving DecidableEq, Repr

namespace Invocation

/-- The options that come before the name of a command. -/
def generalOptions : List OptionSpec :=
  [⟨"verbose", some 'v', false⟩, ⟨"help", some 'h', false⟩, ⟨"version", some 'V', false⟩]

def commonOptions : List OptionSpec :=
  [⟨"root", some 'r', true⟩, ⟨"config", some 'c', true⟩, ⟨"verbose", some 'v', false⟩,
   ⟨"help", some 'h', false⟩]

def renderOptions : List OptionSpec :=
  commonOptions ++ [⟨"out-dir", some 'o', true⟩, ⟨"standalone", none, false⟩,
    ⟨"strict", none, false⟩]

def valuesOf (long : String) (args : List Argument) : List String :=
  args.filterMap fun
    | .option name value => if name = long then some value else none
    | _ => none

def countOf (long : String) (args : List Argument) : Nat :=
  args.countP fun
    | .flag name => name == long
    | _ => false

def operandsOf (args : List Argument) : List String :=
  args.filterMap fun
    | .operand text => some text
    | _ => none

/-- The value of an option that is given at most once. -/
def single? (long : String) (args : List Argument) : Option (Option String) :=
  match valuesOf long args with
  | [] => some none
  | [value] => some (some value)
  | _ => none

/-- Whether a flag is given, which may be done once. -/
def flag? (long : String) (args : List Argument) : Option Bool :=
  match countOf long args with
  | 0 => some false
  | 1 => some true
  | _ => none

/-- A path must not be empty. -/
def path? (path : Option String) : Option (Option String) :=
  if path == some "" then none else some path

/-- The arguments up to the first flag that asks for help. -/
def untilHelp : List Argument → List Argument × Bool
  | [] => ([], false)
  | .flag "help" :: _ => ([], true)
  | arg :: rest => let (args, found) := untilHelp rest; (arg :: args, found)

def renderOf? (args : List Argument) : Option Invocation := do
  let _ ← flag? "verbose" args
  let files := operandsOf args
  if files.contains "" then none
  else
    some (render {
      files := files
      rootId := ← single? "root" args
      outputDir := ← path? (← single? "out-dir" args)
      config := ← path? (← single? "config" args)
      standalone := ← flag? "standalone" args
      strict := ← flag? "strict" args })

def treeOf? (args : List Argument) : Option Invocation := do
  let _ ← flag? "verbose" args
  let files := operandsOf args
  if files.contains "" || 1 < files.length then none
  else
    some (tree {
      file := files.head?
      rootId := ← single? "root" args
      config := ← path? (← single? "config" args) })

/-- What there is help on: the program, or one of its commands. -/
def helpTopics : List (List String) :=
  [[], ["render"], ["tree"], ["help"]]

def commandOf? (name : String) (args : List String) : Option Invocation :=
  match name with
  | "render" => run renderOptions renderOf?
  | "tree" => run commonOptions treeOf?
  | "help" => if helpTopics.contains args then some help else none
  | _ => none
where
  /-- The arguments read, or the help on them. -/
  run (specs : List OptionSpec) (ask? : List Argument → Option Invocation) : Option Invocation := do
    let (args, helps) := untilHelp (← Arguments.read? specs none args)
    let invocation ← ask? args
    some (if helps then help else invocation)

/-- What the arguments ask for, given the number of flags for more messages so far. A command comes
first, and only general flags may come before it. -/
def ofArgumentsAfter? (verbose : Nat) : List String → Option Invocation
  | [] => none
  | arg :: rest => do
    if Arguments.isValue arg then commandOf? arg rest
    else if arg == "--" then none
    else
      let (flags, _) ← match arg.toList with
        | '-' :: '-' :: body => Arguments.longOption? generalOptions body
        | _ :: body => Arguments.letters? generalOptions body
        | [] => none
      let (before, helps) := untilHelp flags
      let verbose := verbose + countOf "verbose" before
      if verbose > 1 then none
      else if before.contains (.flag "version") then some version
      else if helps then some help
      else ofArgumentsAfter? verbose rest

def ofArguments? (args : List String) : Option Invocation :=
  ofArgumentsAfter? 0 args

end Invocation
end Folio
