import AttributeLint.Text.Blank
import AttributeLint.Text.Digit

/-!
# Integers written as text

A number written as text may have blanks around it, a sign, digits of any script, and single
underscores between digits.  More than `digitLimit` digits are refused.
-/

namespace AttributeLint.Integer

/-- The most digits that a decimal integer may have. -/
def digitLimit : Nat := 4300

/-- The digits of a number whose digits may be separated by single underscores. -/
def separated : List Char → Option (List Nat)
  | [] => none
  | c :: rest =>
    match Text.digitValue? c with
    | none => none
    | some d =>
      match rest with
      | [] => some [d]
      | '_' :: more => (separated more).map (d :: ·)
      | more => (separated more).map (d :: ·)

/-- The number that decimal digits write. -/
def ofDigits (digits : List Nat) : Nat :=
  digits.foldl (fun n d => 10 * n + d) 0

/-- A text without the blanks at its ends. -/
def stripped (text : List Char) : List Char :=
  ((text.dropWhile Text.isBlank).reverse.dropWhile Text.isBlank).reverse

/-- The natural number that a text without sign and blanks writes. -/
def magnitude? (text : List Char) : Option Nat :=
  match separated text with
  | some digits => if digits.length ≤ digitLimit then some (ofDigits digits) else none
  | none => none

/-- The integer that a text writes. -/
def ofText? (text : List Char) : Option Int :=
  match stripped text with
  | '-' :: rest => (magnitude? rest).map fun n => -(n : Int)
  | '+' :: rest => (magnitude? rest).map fun n => (n : Int)
  | rest => (magnitude? rest).map fun n => (n : Int)

/-- The wording for a number with too many digits. -/
def tooLong (count : Nat) : String :=
  "Exceeds the limit (4300 digits) for integer string conversion: value has " ++ toString count ++
    " digits; use sys.set_int_max_str_digits() to increase the limit"

end AttributeLint.Integer
