import Folio.Decimal.Text
import Folio.Json.Basic

/-!
# Folio.Json.Writer

JSON as text: `Json.compact` without any blanks, `Json.pretty` with one element or member a line
and two blanks of indentation for each level. Members keep their order. A number that is not
finite is written `null`.
-/

namespace Folio
namespace Json

/-- Numbers in documents: plain from `1e-5` up to `1e16`, with an exponent outside, and always
recognisable as a double. -/
def numberStyle : FloatStyle where
  tie := .toEven
  positional := fun point => -4 ≤ point && point ≤ 16
  keepPoint := true
  nan := "null"
  infinity := "null"
  negInfinity := "null"

def Number.write : Number → List Char
  | .int n => (toString n).toList
  | .float x => (numberStyle.write x).toList

def hexDigit (n : Nat) : Char :=
  Char.ofNat (if n < 10 then 48 + n else 87 + n)

/-- A character of a string: quotes, backslashes and control characters are escaped. -/
def quoteChar : Char → List Char
  | '"' => ['\\', '"']
  | '\\' => ['\\', '\\']
  | '\n' => ['\\', 'n']
  | '\r' => ['\\', 'r']
  | '\t' => ['\\', 't']
  | '\x08' => ['\\', 'b']
  | '\x0c' => ['\\', 'f']
  | c =>
    if c.toNat < 32 then
      ['\\', 'u', '0', '0', hexDigit (c.toNat / 16), hexDigit (c.toNat % 16)]
    else [c]

def quote (s : String) : List Char :=
  '"' :: (s.toList.flatMap quoteChar ++ ['"'])

mutual

/-- Text without blanks. -/
def compactChars : Json → List Char
  | null => "null".toList
  | bool b => if b then "true".toList else "false".toList
  | number n => n.write
  | string s => quote s
  | array [] => ['[', ']']
  | array (v :: rest) => '[' :: (compactChars v ++ compactElements rest)
  | object [] => ['\x7b', '\x7d']
  | object ((k, v) :: rest) => '\x7b' :: (quote k ++ ':' :: (compactChars v ++ compactMembers rest))

/-- The elements after the first one, and the closing bracket. -/
def compactElements : List Json → List Char
  | [] => [']']
  | v :: rest => ',' :: (compactChars v ++ compactElements rest)

/-- The members after the first one, and the closing brace. -/
def compactMembers : List (String × Json) → List Char
  | [] => ['\x7d']
  | (k, v) :: rest => ',' :: (quote k ++ ':' :: (compactChars v ++ compactMembers rest))

end

/-- A line break and the indentation of a level. -/
def newline (level : Nat) : List Char :=
  '\n' :: List.replicate (2 * level) ' '

mutual

/-- Text with one element or member a line, at a level of nesting. -/
def prettyChars (level : Nat) : Json → List Char
  | null => "null".toList
  | bool b => if b then "true".toList else "false".toList
  | number n => n.write
  | string s => quote s
  | array [] => ['[', ']']
  | array (v :: rest) =>
    '[' :: (newline (level + 1) ++ prettyChars (level + 1) v ++ prettyElements level rest)
  | object [] => ['\x7b', '\x7d']
  | object ((k, v) :: rest) =>
    '\x7b' :: (newline (level + 1) ++ quote k ++ ':' :: ' ' ::
      (prettyChars (level + 1) v ++ prettyMembers level rest))

/-- The elements after the first one, and the closing bracket on a line of its own. -/
def prettyElements (level : Nat) : List Json → List Char
  | [] => newline level ++ [']']
  | v :: rest =>
    ',' :: (newline (level + 1) ++ prettyChars (level + 1) v ++ prettyElements level rest)

/-- The members after the first one, and the closing brace on a line of its own. -/
def prettyMembers (level : Nat) : List (String × Json) → List Char
  | [] => newline level ++ ['\x7d']
  | (k, v) :: rest =>
    ',' :: (newline (level + 1) ++ quote k ++ ':' :: ' ' ::
      (prettyChars (level + 1) v ++ prettyMembers level rest))

end

def compact (v : Json) : String :=
  String.ofList v.compactChars

def pretty (v : Json) : String :=
  String.ofList (v.prettyChars 0)

end Json
end Folio
