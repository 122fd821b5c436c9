import Folio.Decimal.Shortest

/-!
# Folio.Decimal.Text

Written forms of doubles. A `FloatStyle` holds the decisions of one form: when the number is
written positionally, whether an integral number keeps `.0`, which way a tie goes, and the words
for the values that are not finite.

* `Float.write`: the text of a double in a style.
* `Float.plain`: the form of numbers inside markup and addresses, never with an exponent.
-/

namespace Folio

/-- The decisions of one written form of doubles. -/
structure FloatStyle where
  tie : Tie
  /-- Given the number of digits before the point, whether the number has no exponent part. -/
  positional : Int → Bool
  keepPoint : Bool
  nan : String
  infinity : String
  negInfinity : String

namespace Decimal

/-- Digits with a point after the first `point` of them; zeros fill the gaps. -/
def positional (keepPoint : Bool) (digits : List Char) (point : Int) : List Char :=
  if point ≤ 0 then
    '0' :: '.' :: (List.replicate (-point).toNat '0' ++ digits)
  else if digits.length ≤ point.toNat then
    digits ++ List.replicate (point.toNat - digits.length) '0' ++
      (if keepPoint then ['.', '0'] else [])
  else
    digits.take point.toNat ++ '.' :: digits.drop point.toNat

/-- One digit before the point, and the sign of the exponent always written. -/
def scientific (digits : List Char) (point : Int) : List Char :=
  let mantissa := match digits with
    | [] => []
    | [d] => [d]
    | d :: rest => d :: '.' :: rest
  let e := point - 1
  mantissa ++ 'e' :: (if e < 0 then '-' else '+') :: Nat.toDigits 10 e.natAbs

def write (style : FloatStyle) (d : Decimal) : List Char :=
  let digits := Nat.toDigits 10 d.coefficient
  let point := d.exponent + digits.length
  if style.positional point then positional style.keepPoint digits point
  else scientific digits point

end Decimal

def FloatStyle.write (style : FloatStyle) (x : Float) : String :=
  if x.isNaN then style.nan
  else if x.isInf then (if x < 0 then style.negInfinity else style.infinity)
  else
    let sign := if Nat.pow 2 63 ≤ x.toBits.toNat then ['-'] else []
    let body :=
      if x == 0 then (if style.keepPoint then ['0', '.', '0'] else ['0'])
      else ((Binary.ofFloat x).shortest style.tie).write style
    String.ofList (sign ++ body)

/-- Plain notation: no exponent however large or small the number, and no `.0`. -/
def FloatStyle.plain : FloatStyle where
  tie := .up
  positional := fun _ => true
  keepPoint := false
  nan := "NaN"
  infinity := "inf"
  negInfinity := "-inf"

end Folio
