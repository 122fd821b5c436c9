import Folio.Decimal.Scaled
import Folio.Json.Basic
import Folio.Text.Digit

/-!
# Folio.Json.Written

A JSON document as it is written, before its numbers and strings are given a meaning. A number is
its digits, a string its characters and escaped UTF-16 units. Such a document can be well formed
and still have no value: a number too large for a double, a surrogate that stands alone, or arrays
and objects nested too deep.

* `Written.read?`: the value of a document.
* `Written.readKnown?`: the value of a record, of which only the members with known keys are read.
-/

namespace Folio
namespace Json

structure NumberText where
  negative : Bool
  whole : List Nat
  fraction : List Nat
  exponent : Option Int
deriving Repr

/-- A piece of a string: a character, or a UTF-16 unit given by its number. -/
inductive Piece where
  | char (c : Char)
  | unit (u : Nat)
deriving Repr

abbrev StringText := List Piece

inductive Written where
  | null
  | bool (b : Bool)
  | number (n : NumberText)
  | string (s : StringText)
  | array (elements : List Written)
  | object (members : List (StringText × Written))
deriving Repr, Inhabited

/-! ## Numbers -/

/-- The double of a number, with its sign. -/
def NumberText.float? (t : NumberText) : Option Number :=
  (Scaled.ofDigits? t.whole t.fraction (t.exponent.getD 0)).map fun x =>
    .float (if t.negative then -x else x)

/-- Without fraction and exponent a number in the range of signed or unsigned words is an
integer; minus zero is a double. -/
def NumberText.read? (t : NumberText) : Option Number :=
  let n := Text.ofDigits 10 t.whole
  if t.fraction.isEmpty && t.exponent.isNone then
    if !t.negative && n < Nat.pow 2 64 then some (.int n)
    else if t.negative && n ≠ 0 && n ≤ Nat.pow 2 63 then some (.int (-n))
    else t.float?
  else t.float?

/-! ## Strings -/

/-- The first unit of a pair. -/
def isLeading (u : Nat) : Bool := 0xD800 ≤ u && u < 0xDC00

/-- The second unit of a pair. -/
def isTrailing (u : Nat) : Bool := 0xDC00 ≤ u && u < 0xE000

def combine (lead trail : Nat) : Char :=
  Char.ofNat (0x10000 + (lead - 0xD800) * 0x400 + (trail - 0xDC00))

/-- The characters of a string after those collected so far, the last first. -/
def readPieces? (found : List Char) : StringText → Option (List Char)
  | [] => some found.reverse
  | .char c :: rest => readPieces? (c :: found) rest
  | .unit u :: .unit v :: rest =>
    if isLeading u then
      if isTrailing v then readPieces? (combine u v :: found) rest else none
    else if isTrailing u then none
    else readPieces? (Char.ofNat u :: found) (.unit v :: rest)
  | .unit u :: rest =>
    if isLeading u || isTrailing u then none else readPieces? (Char.ofNat u :: found) rest

/-- The text of a string, unless a surrogate stands alone. -/
def StringText.read? (s : StringText) : Option String :=
  (readPieces? [] s).map String.ofList

/-! ## Documents -/

namespace Written

mutual

/-- The value of a document that nests at most `depth` arrays and objects. -/
def read? (depth : Nat) : Written → Option Json
  | null => some .null
  | bool b => some (.bool b)
  | number n => n.read?.map .number
  | string s => (StringText.read? s).map .string
  | array elements =>
    match depth with
    | 0 => none
    | d + 1 => (readElements? d elements).map .array
  | object members =>
    match depth with
    | 0 => none
    | d + 1 => (readMembers? d members).map .object

def readElements? (depth : Nat) : List Written → Option (List Json)
  | [] => some []
  | v :: rest => do
    let value ← read? depth v
    let values ← readElements? depth rest
    some (value :: values)

def readMembers? (depth : Nat) : List (StringText × Written) → Option (List (String × Json))
  | [] => some []
  | (k, v) :: rest => do
    let key ← StringText.read? k
    let value ← read? depth v
    let members ← readMembers? depth rest
    some ((key, value) :: members)

end

/-- Arrays and objects may nest this deep. -/
def maxDepth : Nat := 127

/-- The members with known keys. All keys have to be readable, the other values need not be. -/
def readKnownMembers? (depth : Nat) (known : List String) :
    List (StringText × Written) → Option (List (String × Json))
  | [] => some []
  | (k, v) :: rest => do
    let key ← StringText.read? k
    let members ← readKnownMembers? depth known rest
    if known.contains key then
      let value ← read? depth v
      some ((key, value) :: members)
    else some members

/-- The value of a record, of which members with other keys are skipped. -/
def readKnown? (known : List String) : Written → Option Json
  | object members => (readKnownMembers? (maxDepth - 1) known members).map .object
  | other => other.read? maxDepth

end Written
end Json
end Folio
