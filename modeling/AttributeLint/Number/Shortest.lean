import AttributeLint.Number.Binary64

/-!
# The shortest decimal

Of the decimals that read back as a given number, the one with the fewest digits, and of those the
nearest to it.  A decimal reads back if it lies between the midpoints to the two neighbours of the
number; the midpoints themselves count when the mantissa is even.  For each count of digits only
the two decimals around the number on that grid need a look.
-/

namespace AttributeLint.Binary64

/-- The decimal `digits · 10 ^ exponent`. -/
structure Decimal where
  digits : Nat
  exponent : Int
  deriving DecidableEq, Repr, Inhabited

/-- A positive number and the two midpoints around it, over one denominator. -/
structure Rounding where
  below : Nat
  value : Nat
  above : Nat
  den : Nat
  closed : Bool

/-- What reads back as `mantissa · 2 ^ exponent`.  Below a power of two the neighbours are half as far
apart. -/
def Rounding.of (mantissa : Nat) (exponent : Int) : Rounding :=
  let unit := if 0 ≤ exponent then Nat.pow 2 exponent.toNat else 1
  let den := if 0 ≤ exponent then 1 else Nat.pow 2 (-exponent).toNat
  let narrow := mantissa == Nat.pow 2 52 && decide (-1074 < exponent)
  { below := (4 * mantissa - if narrow then 1 else 2) * unit
    value := 4 * mantissa * unit
    above := (4 * mantissa + 2) * unit
    den := 4 * den
    closed := mantissa % 2 == 0 }

/-- Whether `digits · 10 ^ exponent` reads back. -/
def Rounding.holds (r : Rounding) (digits : Nat) (exponent : Int) : Bool :=
  let num := if 0 ≤ exponent then digits * Nat.pow 10 exponent.toNat * r.den else digits * r.den
  let scale := if 0 ≤ exponent then 1 else Nat.pow 10 (-exponent).toNat
  if r.closed then r.below * scale ≤ num && num ≤ r.above * scale
  else r.below * scale < num && num < r.above * scale

/-- The whole part and twice the remainder of the value on the grid of `10 ^ exponent`, and the
size of a grid step to compare the latter with. -/
def Rounding.onGrid (r : Rounding) (exponent : Int) : Nat × Nat × Nat :=
  let num := if 0 ≤ exponent then r.value else r.value * Nat.pow 10 (-exponent).toNat
  let den := if 0 ≤ exponent then r.den * Nat.pow 10 exponent.toNat else r.den
  (num / den, 2 * (num % den), den)

/-- The decimal on the grid of `10 ^ exponent` that reads back, if there is one; the nearer of two,
and the even one of two that are equally near. -/
def Rounding.pick? (r : Rounding) (exponent : Int) : Option Nat :=
  let (floor, twice, step) := r.onGrid exponent
  let down := floor != 0 && r.holds floor exponent
  let up := r.holds (floor + 1) exponent
  if down && up then
    some (if twice < step || (twice == step && floor % 2 == 0) then floor else floor + 1)
  else if down then some floor
  else if up then some (floor + 1)
  else none

/-- The first grid with a decimal that reads back, from a coarse one to ever finer ones. -/
def Rounding.search (r : Rounding) : Nat → Int → Decimal
  | 0, exponent => ⟨(r.onGrid exponent).1, exponent⟩
  | n + 1, exponent =>
    match r.pick? exponent with
    | some digits => ⟨digits, exponent⟩
    | none => r.search n (exponent - 1)

/-- Takes zeros from the end of the digits, at most as many as the first argument says. -/
def Decimal.trim : Nat → Decimal → Decimal
  | 0, d => d
  | n + 1, d => if d.digits != 0 && d.digits % 10 == 0 then trim n ⟨d.digits / 10, d.exponent + 1⟩ else d

/-- The shortest decimal for a positive number.  The search starts at a grid that is too coarse for
any number of that size. -/
def shortest (mantissa : Nat) (exponent : Int) : Decimal :=
  let bits : Int := mantissa.log2 + exponent
  let top := bits * 30103 / 100000 + 2
  Decimal.trim 20 ((Rounding.of mantissa exponent).search 25 top)

end AttributeLint.Binary64
