/-!
# Folio.CodeLanguage

Language names as an editor shows them, and the names that highlighters know them by. Plain text
and unlisted languages have none: code in them is shown as escaped text.
-/

namespace Folio
namespace CodeLanguage

/-- Shown name and highlighter name of each language. -/
def table : List (String × String) :=
  [("ABAP", "abap"), ("Arduino", "arduino"), ("Bash", "bash"), ("Shell", "bash"),
   ("BASIC", "basic"), ("C", "c"), ("Clojure", "clojure"), ("CoffeeScript", "coffeescript"),
   ("C++", "cpp"), ("C#", "csharp"), ("CSS", "css"), ("Dart", "dart"), ("Diff", "diff"),
   ("Docker", "docker"), ("Elixir", "elixir"), ("Elm", "elm"), ("Erlang", "erlang"),
   ("Flow", "flow"), ("Fortran", "fortran"), ("F#", "fsharp"), ("Gherkin", "gherkin"),
   ("GLSL", "glsl"), ("Go", "go"), ("GraphQL", "graphql"), ("Groovy", "groovy"),
   ("Haskell", "haskell"), ("HTML", "markup"), ("Markup", "markup"), ("XML", "markup"),
   ("Java", "java"), ("JavaScript", "javascript"), ("JSON", "json"), ("Julia", "julia"),
   ("Kotlin", "kotlin"), ("LaTeX", "latex"), ("Less", "less"), ("Lisp", "lisp"),
   ("LiveScript", "livescript"), ("Lua", "lua"), ("Makefile", "makefile"),
   ("Markdown", "markdown"), ("MATLAB", "matlab"), ("Nix", "nix"), ("Objective-C", "objectivec"),
   ("OCaml", "ocaml"), ("Pascal", "pascal"), ("Perl", "perl"), ("PHP", "php"),
   ("PowerShell", "powershell"), ("Prolog", "prolog"), ("Protobuf", "protobuf"),
   ("Python", "python"), ("R", "r"), ("Reason", "reason"), ("Ruby", "ruby"), ("Rust", "rust"),
   ("Sass", "sass"), ("Scala", "scala"), ("Scheme", "scheme"), ("SCSS", "scss"), ("SQL", "sql"),
   ("Swift", "swift"), ("TypeScript", "typescript"), ("VB.Net", "vbnet"), ("Verilog", "verilog"),
   ("VHDL", "vhdl"), ("Visual Basic", "visual-basic"), ("WebAssembly", "wasm"), ("YAML", "yaml")]

def grammar? (name : String) : Option String :=
  table.lookup name

end CodeLanguage
end Folio
