/-!
# Binary floating-point numbers of 64 bits

A finite number is `± mantissa · 2 ^ exponent` with `mantissa < 2 ^ 53` and `exponent ≥ -1074`; the
mantissa is at least `2 ^ 52` unless the exponent is the least one.  All arithmetic on them here is
exact arithmetic on natural numbers: a decimal is read by rounding a quotient once, half to even.
-/

namespace AttributeLint

/-- A number of the IEEE format of 64 bits; all the ways to be no number are one. -/
inductive Binary64 where
  | nan
  | infinite (negative : Bool)
  | finite (negative : Bool) (mantissa : Nat) (exponent : Int)
  deriving DecidableEq, Repr, Inhabited

namespace Binary64

/-- A quotient rounded to the nearest natural number, a half to the even neighbour. -/
def roundQuotient (num den : Nat) : Nat :=
  let q := num / den
  let twice := 2 * (num % den)
  if den < twice || (twice == den && q % 2 == 1) then q + 1 else q

/-- A quotient divided by `2 ^ exponent`, again as a numerator and a denominator. -/
def unscale (num den : Nat) (exponent : Int) : Nat × Nat :=
  if 0 ≤ exponent then (num, den * Nat.pow 2 exponent.toNat)
  else (num * Nat.pow 2 (-exponent).toNat, den)

/-- The exponent for a positive quotient: the least, from -1074 on, that leaves a whole part below
`2 ^ 53`. -/
def exponentFor (num den : Nat) : Int :=
  let guess := max ((num.log2 : Int) - den.log2 - 53) (-1074)
  let scaled := unscale num den guess
  if scaled.1 / scaled.2 < Nat.pow 2 53 then guess else guess + 1

/-- The number nearest to a positive quotient. -/
def ofQuotient (negative : Bool) (num den : Nat) : Binary64 :=
  let exponent := exponentFor num den
  let scaled := unscale num den exponent
  let mantissa := roundQuotient scaled.1 scaled.2
  let rounded :=
    if mantissa == Nat.pow 2 53 then (Nat.pow 2 52, exponent + 1) else (mantissa, exponent)
  if 971 < rounded.2 then infinite negative else finite negative rounded.1 rounded.2

/-- The number nearest to `± digits · 10 ^ scale`. -/
def ofDecimal (negative : Bool) (digits : Nat) (scale : Int) : Binary64 :=
  if digits == 0 then finite negative 0 (-1074)
  else if 310 < scale then infinite negative
  -- The quotient is below `10 ^ -330`, and half the least positive number is above that.
  else if scale + (digits.log2 / 3 + 1 : Nat) < -330 then finite negative 0 (-1074)
  else if 0 ≤ scale then ofQuotient negative (digits * Nat.pow 10 scale.toNat) 1
  else ofQuotient negative digits (Nat.pow 10 (-scale).toNat)

/-- Whether a number is positive or negative zero. -/
def isZero : Binary64 → Bool
  | finite _ mantissa _ => mantissa == 0
  | _ => false

/-- Whether a number is finite and whole. -/
def isWhole : Binary64 → Bool
  | finite _ mantissa exponent => 0 ≤ exponent || mantissa % Nat.pow 2 (-exponent).toNat == 0
  | _ => false

/-- A finite number with its fraction cut off, exactly. -/
def truncate : Binary64 → Int
  | finite negative mantissa exponent =>
    let whole := if 0 ≤ exponent then mantissa * Nat.pow 2 exponent.toNat
      else mantissa / Nat.pow 2 (-exponent).toNat
    if negative then -(whole : Int) else whole
  | _ => 0

end Binary64

end AttributeLint
