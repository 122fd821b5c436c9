import Folio.Toml.Basic
import Folio.Toml.Quoted
import Folio.Toml.Scalar
import Folio.Toml.Tables

/-!
# Folio.Toml.Statement

The lines of a configuration document: headers of tables and assignments of values.

* `value?`: a value at the front of a text. Arrays and tables nest to a limited depth.
* `statements?`: all lines of a text.
* `ofText?`: the document.
-/

namespace Folio
namespace Toml

/-- A text without the blanks, line breaks and comments at its front. -/
def skipTrivia? (inComment : Bool) : List Char → Option (List Char)
  | [] => some []
  | '\n' :: rest => skipTrivia? false rest
  | '\r' :: '\n' :: rest => skipTrivia? false rest
  | c :: rest =>
    if inComment then if isControl c then none else skipTrivia? true rest
    else if c == '#' then skipTrivia? true rest
    else if isBlank c then skipTrivia? false rest
    else some (c :: rest)

/-- What follows a line that may end in a comment. -/
def endLine? (inComment : Bool) : List Char → Option (List Char)
  | [] => some []
  | '\n' :: rest => some rest
  | '\r' :: '\n' :: rest => some rest
  | c :: rest =>
    if inComment then if isControl c then none else endLine? true rest
    else if c == '#' then endLine? true rest
    else if isBlank c then endLine? false rest
    else none

/-- The characters of keys without quotes. -/
def isKeyChar (c : Char) : Bool :=
  c.isAlphanum || c == '_' || c == '-'

def keyPart? : List Char → Option (String × List Char)
  | '"' :: rest => (basic? [] rest).map fun (k, tail) => (String.ofList k, tail)
  | '\'' :: rest => (literal? [] rest).map fun (k, tail) => (String.ofList k, tail)
  | s =>
    let k := s.takeWhile isKeyChar
    if k.isEmpty then none else some (String.ofList k, s.dropWhile isKeyChar)

/-- A key: parts joined by points, with blanks around them. -/
def key? (s : List Char) : Option (List String × List Char) := do
  let (part, rest) ← keyPart? (s.dropWhile isBlank)
  match rest.dropWhile isBlank with
  | '.' :: tail =>
    if tail.length < s.length then
      let (parts, tail) ← key? tail
      some (part :: parts, tail)
    else none
  | tail => some ([part], tail)
termination_by s.length

/-- Items up to a closing character, with commas between them and perhaps one at the end. -/
def separated? (item : List Char → Option (α × List Char)) (close : Char) (s : List Char) :
    Option (List α × List Char) := do
  let s' ← skipTrivia? false s
  match s' with
  | [] => none
  | c :: tail =>
    if c = close then some ([], tail)
    else
      let (x, rest) ← item s'
      match ← skipTrivia? false rest with
      | ',' :: tail =>
        if tail.length < s.length then
          let (xs, tail) ← separated? item close tail
          some (x :: xs, tail)
        else none
      | c :: tail => if c = close then some ([x], tail) else none
      | [] => none
termination_by s.length

/-- An assignment, for which values are read by `value`. -/
def assignment? (value : List Char → Option (Toml × List Char)) (s : List Char) :
    Option ((List String × Toml) × List Char) := do
  let (path, rest) ← key? s
  match rest with
  | '=' :: rest =>
    let (v, rest) ← value (rest.dropWhile isBlank)
    some ((path, v), rest)
  | _ => none

/-- A value at the front of a text, of at most `depth` nested arrays and tables. -/
def value? : (depth : Nat) → List Char → Option (Toml × List Char)
  | depth, '[' :: rest =>
    match depth with
    | 0 => none
    | d + 1 => do
      let (elements, tail) ← separated? (value? d) ']' rest
      some (array elements, tail)
  | depth, '\x7b' :: rest =>
    match depth with
    | 0 => none
    | d + 1 => do
      let (assignments, tail) ← separated? (assignment? (value? d)) '\x7d' rest
      some (← Items.inlineTable? assignments, tail)
  | _, s =>
    match s with
    | '"' :: _ | '\'' :: _ => do
      let (text, tail) ← quoted? s
      some (string (String.ofList text), tail)
    | _ => do
      let (word, tail) := splitWord s
      some (← scalar? word, tail)

/-- Arrays and tables may nest this deep in one value. -/
def maxDepth : Nat := 80

/-- A header behind its opening bracket. -/
def header? (s : List Char) : Option (Statement × List Char) :=
  match s with
  | '[' :: rest => do
    let (path, tail) ← key? rest
    match tail with
    | ']' :: ']' :: tail => some (.arrayHeader path, tail)
    | _ => none
  | _ => do
    let (path, tail) ← key? s
    match tail with
    | ']' :: tail => some (.header path, tail)
    | _ => none

def statement? : List Char → Option (Statement × List Char)
  | '[' :: rest => header? rest
  | s => do
    let ((path, v), tail) ← assignment? (value? maxDepth) s
    some (.assign path v, tail)

def statements? (s : List Char) : Option (List Statement) := do
  let s' ← skipTrivia? false s
  if s'.isEmpty then some []
  else
    let (statement, rest) ← statement? s'
    let rest ← endLine? false rest
    if rest.length < s.length then
      let others ← statements? rest
      some (statement :: others)
    else none
termination_by s.length

def dropByteOrderMark : List Char → List Char
  | '\ufeff' :: rest => rest
  | s => s

def ofText? (text : String) : Option Toml := do
  Items.ofStatements? (← statements? (dropByteOrderMark text.toList))

end Toml
end Folio
