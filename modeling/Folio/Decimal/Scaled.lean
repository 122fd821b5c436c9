/-!
# Folio.Decimal.Scaled

Doubles from decimal digits by scaling: the leading digits that fit a 64-bit word are one integer,
which is rounded to a double and then multiplied or divided by a power of ten. This rounds twice,
so a number of many digits can come out one unit beside the nearest double. A number beyond the
largest double has no value.
-/

namespace Folio
namespace Scaled

/-- Appends digits to a 64-bit number as long as they fit, and tells how many did not. -/
def fill (n : Nat) : List Nat → Nat × Nat
  | [] => (n, 0)
  | d :: rest => if n * 10 + d < Nat.pow 2 64 then fill (n * 10 + d) rest else (n, rest.length + 1)

def powerOfTen (n : Nat) : Float := Float.ofScientific 1 false n

/-- Division by a power of ten, of which one division takes at most `10 ^ 308`. -/
def shrink (x : Float) (n : Nat) : Float :=
  if n ≤ 308 then x / powerOfTen n
  else if x == 0 then x
  else shrink (x / powerOfTen 308) (n - 308)
termination_by n

/-- The double for `n * 10 ^ e`. -/
def scale? (n : Nat) (e : Int) : Option Float :=
  let x := Float.ofNat n
  if e < 0 then some (shrink x e.natAbs)
  else if e ≤ 308 then
    let y := x * powerOfTen e.toNat
    if y.isInf then none else some y
  else if n = 0 then some x
  else none

/-- The double for digits before and after the point and an exponent. -/
def ofDigits? (whole fraction : List Nat) (e : Int) : Option Float :=
  let (n, skipped) := fill 0 whole
  let (m, rest) := fill n fraction
  scale? m (e + skipped - (fraction.length - rest : Nat))

end Scaled
end Folio
