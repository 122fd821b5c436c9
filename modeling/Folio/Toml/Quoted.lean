import Folio.Text.Digit

/-!
# Folio.Toml.Quoted

Strings of the configuration format: basic strings with escapes, literal strings without, and both
over several lines. Each reader starts behind the opening quotes and gives the characters and what
follows the closing quotes.
-/

namespace Folio
namespace Toml

def isBlank (c : Char) : Bool := c == ' ' || c == '\t'

/-- Control characters other than the tab are not allowed in strings and comments. -/
def isControl (c : Char) : Bool :=
  (c.toNat < 32 && c != '\t') || c.toNat == 127

def escape? : Char → Option Char
  | 'b' => some '\x08'
  | 't' => some '\t'
  | 'n' => some '\n'
  | 'f' => some '\x0c'
  | 'r' => some '\r'
  | 'e' => some '\x1b'
  | '"' => some '"'
  | '\\' => some '\\'
  | _ => none

/-- The character that hexadecimal digits name. -/
def codePoint? (digits : List Char) : Option Char := do
  let n := Text.ofDigits 16 (← digits.mapM Text.hexDigit?)
  if n.isValidChar then some (Char.ofNat n) else none

/-- A basic string on one line, after the characters found so far, the last first. -/
def basic? (found : List Char) : List Char → Option (List Char × List Char)
  | [] => none
  | '"' :: rest => some (found.reverse, rest)
  | '\\' :: 'x' :: a :: b :: rest => do basic? ((← codePoint? [a, b]) :: found) rest
  | '\\' :: 'u' :: a :: b :: c :: d :: rest => do
    basic? ((← codePoint? [a, b, c, d]) :: found) rest
  | '\\' :: 'U' :: a :: b :: c :: d :: e :: f :: g :: h :: rest => do
    basic? ((← codePoint? [a, b, c, d, e, f, g, h]) :: found) rest
  | '\\' :: e :: rest => do basic? ((← escape? e) :: found) rest
  | c :: rest => if isControl c || c == '\\' then none else basic? (c :: found) rest

def literal? (found : List Char) : List Char → Option (List Char × List Char)
  | [] => none
  | '\'' :: rest => some (found.reverse, rest)
  | c :: rest => if isControl c then none else literal? (c :: found) rest

def endsLine (s : List Char) : Bool :=
  match s.dropWhile isBlank with
  | '\n' :: _ => true
  | '\r' :: '\n' :: _ => true
  | _ => false

/-- A basic string over several lines. A backslash at the end of a line takes all blanks and line
breaks after it away; `skipping` tells that such a backslash came just before. -/
def multiBasic? (skipping : Bool) (found : List Char) :
    List Char → Option (List Char × List Char)
  | [] => none
  | '"' :: '"' :: '"' :: '"' :: '"' :: rest => some (('"' :: '"' :: found).reverse, rest)
  | '"' :: '"' :: '"' :: '"' :: rest => some (('"' :: found).reverse, rest)
  | '"' :: '"' :: '"' :: rest => some (found.reverse, rest)
  | '\n' :: rest => multiBasic? skipping (if skipping then found else '\n' :: found) rest
  | '\r' :: '\n' :: rest =>
    multiBasic? skipping (if skipping then found else '\n' :: '\r' :: found) rest
  | '\\' :: 'x' :: a :: b :: rest => do multiBasic? false ((← codePoint? [a, b]) :: found) rest
  | '\\' :: 'u' :: a :: b :: c :: d :: rest => do
    multiBasic? false ((← codePoint? [a, b, c, d]) :: found) rest
  | '\\' :: 'U' :: a :: b :: c :: d :: e :: f :: g :: h :: rest => do
    multiBasic? false ((← codePoint? [a, b, c, d, e, f, g, h]) :: found) rest
  | '\\' :: rest =>
    if endsLine rest then multiBasic? true found rest
    else match rest with
      | e :: rest => do multiBasic? false ((← escape? e) :: found) rest
      | [] => none
  | c :: rest =>
    if isControl c then none
    else if skipping && isBlank c then multiBasic? true found rest
    else multiBasic? false (c :: found) rest

def multiLiteral? (found : List Char) : List Char → Option (List Char × List Char)
  | [] => none
  | '\'' :: '\'' :: '\'' :: '\'' :: '\'' :: rest => some (('\'' :: '\'' :: found).reverse, rest)
  | '\'' :: '\'' :: '\'' :: '\'' :: rest => some (('\'' :: found).reverse, rest)
  | '\'' :: '\'' :: '\'' :: rest => some (found.reverse, rest)
  | '\n' :: rest => multiLiteral? ('\n' :: found) rest
  | '\r' :: '\n' :: rest => multiLiteral? ('\n' :: '\r' :: found) rest
  | c :: rest => if isControl c then none else multiLiteral? (c :: found) rest

/-- A line break right behind the opening quotes does not count. -/
def dropNewline : List Char → List Char
  | '\n' :: rest => rest
  | '\r' :: '\n' :: rest => rest
  | s => s

/-- A string of any kind, with its quotes. -/
def quoted? : List Char → Option (List Char × List Char)
  | '"' :: '"' :: '"' :: rest => multiBasic? false [] (dropNewline rest)
  | '\'' :: '\'' :: '\'' :: rest => multiLiteral? [] (dropNewline rest)
  | '"' :: rest => basic? [] rest
  | '\'' :: rest => literal? [] rest
  | _ => none

end Toml
end Folio
