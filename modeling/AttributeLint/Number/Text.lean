import AttributeLint.Number.Shortest

/-!
# The text of a number

Numbers whose first digit stands between the fourth place behind the point and the sixteenth before
it are written positionally, with at least one digit behind the point; all others with an exponent of
a sign and at least two digits.
-/

namespace AttributeLint.Binary64

/-- The text of a positive decimal. -/
def Decimal.text (d : Decimal) : String :=
  let digits := Nat.toDigits 10 d.digits
  let count : Int := digits.length
  let point := count + d.exponent
  if -4 < point && point ≤ 16 then
    if point ≤ 0 then String.ofList ('0' :: '.' :: List.replicate (-point).toNat '0' ++ digits)
    else if count ≤ point then
      String.ofList (digits ++ List.replicate (point - count).toNat '0' ++ ['.', '0'])
    else String.ofList (digits.take point.toNat ++ '.' :: digits.drop point.toNat)
  else
    let exponent := point - 1
    let size := Nat.toDigits 10 exponent.natAbs
    let padded := if size.length < 2 then '0' :: size else size
    let sign := if exponent < 0 then '-' else '+'
    let mantissa := match digits with
      | [one] => [one]
      | first :: rest => first :: '.' :: rest
      | [] => []
    String.ofList (mantissa ++ 'e' :: sign :: padded)

/-- The text of a number. -/
def text : Binary64 → String
  | nan => "nan"
  | infinite negative => if negative then "-inf" else "inf"
  | finite negative mantissa exponent =>
    let magnitude := if mantissa == 0 then "0.0" else (shortest mantissa exponent).text
    if negative then "-" ++ magnitude else magnitude

end AttributeLint.Binary64
