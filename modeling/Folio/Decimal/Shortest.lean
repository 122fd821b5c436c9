/-!
# Folio.Decimal.Shortest

The shortest decimal that reads back as a given double. A positive finite double is `m * 2 ^ q`.
The reals that round to it form an interval, whose ends belong to it iff `m` is even. On the grid
of decimals with `n` significant digits the two neighbours of the value are tested, for
`n = 1, 2, …`: the first grid with a hit wins, of two hits the nearer one.

* `Binary.ofFloat`: the pair `(m, q)` of a double.
* `Binary.shortest`: the decimal.

All arithmetic is on natural numbers. Everything is scaled so that the value is `4 * m` in units
of `2 ^ (q - 2)`; in these units the ends of the interval are whole.
-/

namespace Folio

/-- A decimal number `coefficient * 10 ^ exponent`. -/
structure Decimal where
  coefficient : Nat
  exponent : Int
deriving DecidableEq, Repr, Inhabited

/-- What to do when two decimals of equal length are equally near. -/
inductive Tie where
  | toEven
  | up
deriving DecidableEq, Repr

/-- A positive number `mantissa * 2 ^ exponent`, with the flag whether the next smaller double is
only half as far as the next larger one. -/
structure Binary where
  mantissa : Nat
  exponent : Int
  narrowBelow : Bool
deriving DecidableEq, Repr

namespace Binary

/-- The absolute value of a finite double, read off its bits. -/
def ofFloat (x : Float) : Binary :=
  let bits : Nat := x.toBits.toNat
  let fraction : Nat := bits % Nat.pow 2 52
  let biased : Nat := bits / Nat.pow 2 52 % Nat.pow 2 11
  if biased = 0 then ⟨fraction, -1074, false⟩
  else ⟨Nat.pow 2 52 + fraction, (biased : Int) - 1075, fraction = 0 && 1 < biased⟩

/-- The value in units of `2 ^ (exponent - 2)`. -/
def center (b : Binary) : Nat := 4 * b.mantissa

/-- The lower end of the rounding interval in the same units. -/
def lower (b : Binary) : Nat := 4 * b.mantissa - if b.narrowBelow then 1 else 2

/-- The upper end of the rounding interval in the same units. -/
def upper (b : Binary) : Nat := 4 * b.mantissa + 2

/-- Factors `(s, t)` such that `d * 10 ^ e` compares with `x` units as `d * s` with `x * t`. -/
def scales (b : Binary) (e : Int) : Nat × Nat :=
  (Nat.pow 10 e.toNat * Nat.pow 2 (2 - b.exponent).toNat,
    Nat.pow 10 (-e).toNat * Nat.pow 2 (b.exponent - 2).toNat)

/-- Whether `d * 10 ^ e` reads back as this number. -/
def roundsFrom (b : Binary) (e : Int) (d : Nat) : Bool :=
  let (s, t) := b.scales e
  if b.mantissa % 2 = 0 then b.lower * t ≤ d * s && d * s ≤ b.upper * t
  else b.lower * t < d * s && d * s < b.upper * t

/-- The multiple of `10 ^ e` at or just below the value. -/
def floorAt (b : Binary) (e : Int) : Nat :=
  let (s, t) := b.scales e
  b.center * t / s

/-- The nearer of two neighbours `d` and `d + 1` on the grid `10 ^ e`. -/
def nearer (b : Binary) (tie : Tie) (e : Int) (d : Nat) : Nat :=
  let (s, t) := b.scales e
  match compare (2 * (b.center * t)) ((2 * d + 1) * s) with
  | .lt => d
  | .gt => d + 1
  | .eq => match tie with
    | .toEven => d + d % 2
    | .up => d + 1

/-- The point of the grid `10 ^ e` that reads back as this number and is nearest to it. -/
def hitAt (b : Binary) (tie : Tie) (e : Int) : Option Nat :=
  let d := b.floorAt e
  match b.roundsFrom e d, b.roundsFrom e (d + 1) with
  | true, true => some (b.nearer tie e d)
  | true, false => some d
  | false, true => some (d + 1)
  | false, false => none

/-- The number of digits before the decimal point, zero or negative below `0.1`. -/
def magnitude (b : Binary) : Int :=
  let scaled := b.mantissa * Nat.pow 2 b.exponent.toNat * Nat.pow 10 340
  let digits := Nat.toDigits 10 (scaled / Nat.pow 2 (-b.exponent).toNat)
  (digits.length : Int) - 340

/-- Trailing zeros of the coefficient move into the exponent, at most `n` of them. -/
def trim : Nat → Decimal → Decimal
  | 0, d => d
  | n + 1, d =>
    if d.coefficient % 10 = 0 then trim n ⟨d.coefficient / 10, d.exponent + 1⟩ else d

/-- The first grid with a hit, from `n` significant digits on; `fuel` grids are tried. -/
def search (b : Binary) (tie : Tie) : (fuel : Nat) → (n : Nat) → Decimal
  | 0, n => ⟨b.floorAt (b.magnitude - n), b.magnitude - n⟩
  | fuel + 1, n =>
    let e := b.magnitude - n
    match b.hitAt tie e with
    | some d => ⟨d, e⟩
    | none => search b tie fuel (n + 1)

/-- The shortest decimal that reads back. Seventeen digits always suffice. -/
def shortest (b : Binary) (tie : Tie) : Decimal :=
  trim 18 (b.search tie 17 1)

end Binary
end Folio
