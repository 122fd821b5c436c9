import Folio.Text.Digit
import Folio.Toml.Basic

/-!
# Folio.Toml.Scalar

Values that are written without quotes: truth values, integers, doubles and points in time.
`scalar?` gives the value of a word.
-/

namespace Folio
namespace Toml

open Text (digit? hexDigit? ofDigits)

/-- A sign apart from what it belongs to. -/
def splitSign : List Char → Option Bool × List Char
  | '-' :: rest => (some true, rest)
  | '+' :: rest => (some false, rest)
  | s => (none, s)

/-- Digits of which two may have an underscore between them. -/
def digits? (digit : Char → Option Nat) : List Char → Option (List Nat)
  | [] => none
  | [c] => (digit c).map ([·])
  | c :: '_' :: rest => do some ((← digit c) :: (← digits? digit rest))
  | c :: rest => do some ((← digit c) :: (← digits? digit rest))

/-- A digit of a small base. -/
def digitBelow? (base : Nat) (c : Char) : Option Nat :=
  (digit? c).filter (· < base)

/-- Decimal digits that do not start with a zero, unless it is the only one. -/
def wholeDigits? (s : List Char) : Option (List Nat) :=
  match digits? digit? s with
  | some [d] => some [d]
  | some (0 :: _) => none
  | other => other

/-- An integer in one of the four bases. It has to fit 128 bits. -/
def integer? (word : List Char) : Option Toml := do
  let n : Int ← match word with
    | '0' :: 'x' :: rest => (digits? hexDigit? rest).map fun ds => (ofDigits 16 ds : Int)
    | '0' :: 'o' :: rest => (digits? (digitBelow? 8) rest).map fun ds => (ofDigits 8 ds : Int)
    | '0' :: 'b' :: rest => (digits? (digitBelow? 2) rest).map fun ds => (ofDigits 2 ds : Int)
    | word =>
      let (sign, rest) := splitSign word
      (wholeDigits? rest).map fun ds =>
        if sign == some true then -(ofDigits 10 ds : Int) else (ofDigits 10 ds : Int)
  if -Int.pow 2 127 ≤ n && n < Int.pow 2 128 then some (integer n) else none

/-- The parts before and after the first character with a property. -/
def splitAtFirst (p : Char → Bool) (s : List Char) : List Char × Option (List Char) :=
  match s.dropWhile (!p ·) with
  | [] => (s, none)
  | _ :: rest => (s.takeWhile (!p ·), some rest)

/-- Digits of a part that may be missing. -/
def optionalDigits? : Option (List Char) → Option (List Nat)
  | none => some []
  | some s => digits? digit? s

/-- The exponent of a part that may be missing. -/
def exponent? : Option (List Char) → Option Int
  | none => some 0
  | some s => do
    let (sign, rest) := splitSign s
    let n := (ofDigits 10 (← digits? digit? rest) : Int)
    some (if sign == some true then -n else n)

/-- Whether digits and an exponent stay below the largest double. -/
def isRepresentable (whole fraction : List Nat) (exponent : Int) : Bool :=
  let n := ofDigits 10 (whole ++ fraction)
  let e := exponent - fraction.length
  n == 0 || e < 0 || (e ≤ 400 && (Float.ofScientific n false e.toNat).isFinite)

/-- A double. It needs a fraction or an exponent, or is one of the words for special values. -/
def float? (word : List Char) : Option Toml := do
  let (_, body) := splitSign word
  let value := float (String.ofList word)
  if body = "inf".toList || body = "nan".toList then some value
  else
    let (mantissa, exponent) := splitAtFirst (fun c => c == 'e' || c == 'E') body
    let (whole, fraction) := splitAtFirst (· == '.') mantissa
    if fraction.isNone && exponent.isNone then none
    else
      let whole ← wholeDigits? whole
      let fraction ← optionalDigits? fraction
      let exponent ← exponent? exponent
      if isRepresentable whole fraction exponent then some value else none

/-- A number of exactly as many digits as there are characters. -/
def fixed? (s : List Char) : Option Nat :=
  (s.mapM digit?).map (ofDigits 10)

def daysIn (year month : Nat) : Nat :=
  if month = 2 then
    if year % 4 = 0 && (year % 100 ≠ 0 || year % 400 = 0) then 29 else 28
  else if [4, 6, 9, 11].contains month then 30 else 31

def isDate : List Char → Bool
  | [a, b, c, d, '-', e, f, '-', g, h] =>
    match fixed? [a, b, c, d], fixed? [e, f], fixed? [g, h] with
    | some year, some month, some day =>
      1 ≤ month && month ≤ 12 && 1 ≤ day && day ≤ daysIn year month
    | _, _, _ => false
  | _ => false

/-- Whether two digits are a number below a bound. -/
def isBelow (bound : Nat) (a b : Char) : Bool :=
  (fixed? [a, b]).any (· < bound)

/-- Whether a word is a time of day; seconds and their fraction may be missing. -/
def isTime : List Char → Bool
  | [a, b, ':', c, d] => isBelow 24 a b && isBelow 60 c d
  | [a, b, ':', c, d, ':', e, f] => isBelow 24 a b && isBelow 60 c d && isBelow 61 e f
  | a :: b :: ':' :: c :: d :: ':' :: e :: f :: '.' :: fraction =>
    isBelow 24 a b && isBelow 60 c d && isBelow 61 e f &&
      !fraction.isEmpty && fraction.all Char.isDigit
  | _ => false

def isOffset : List Char → Bool
  | ['Z'] => true
  | ['z'] => true
  | [s, a, b, ':', c, d] => (s == '+' || s == '-') && isBelow 24 a b && isBelow 60 c d
  | _ => false

/-- Whether a word is a time of day, with or without an offset. -/
def isTimeOfDay (s : List Char) : Bool :=
  let time := s.takeWhile fun c => c.isDigit || c == ':' || c == '.'
  let offset := s.drop time.length
  isTime time && (offset.isEmpty || isOffset offset)

/-- A date, a time of day, or both. -/
def dateTime? (word : List Char) : Option Toml :=
  let ok :=
    if isDate word || isTime word then true
    else
      isDate (word.take 10) && match word.drop 10 with
        | c :: time => (c == 'T' || c == 't' || c == ' ') && isTimeOfDay time
        | [] => false
  if ok then some (dateTime (String.ofList word)) else none

def scalar? (word : List Char) : Option Toml :=
  if word = "true".toList then some (bool true)
  else if word = "false".toList then some (bool false)
  else (integer? word).or ((float? word).or (dateTime? word))

def isWordChar (c : Char) : Bool :=
  c.isAlphanum || c == '+' || c == '-' || c == '_' || c == '.' || c == ':'

/-- The word at the front of a text. Between a date and a time there may be a blank. -/
def splitWord (s : List Char) : List Char × List Char :=
  let word := s.takeWhile isWordChar
  let rest := s.dropWhile isWordChar
  match rest with
  | ' ' :: d :: tail =>
    if isDate word && d.isDigit then
      (word ++ ' ' :: (d :: tail).takeWhile isWordChar, (d :: tail).dropWhile isWordChar)
    else (word, rest)
  | _ => (word, rest)

end Toml
end Folio
