import AttributeLint.Data.Basic
import AttributeLint.Text.Hex
import AttributeLint.Toml.Fault

/-!
# Numbers, dates and times of TOML

Each reader takes the longest valid text at the start of what it is given, and gives none where there
is no such text.
-/

namespace AttributeLint.Toml

/-- A number of two digits below a bound. -/
def twoDigits? (bound : Nat) : List Char → Option (Nat × List Char)
  | a :: b :: rest =>
    if a.isDigit && b.isDigit then
      let n := (a.toNat - 0x30) * 10 + (b.toNat - 0x30)
      if n < bound then some (n, rest) else none
    else none
  | _ => none

/-- A character that has to come next. -/
def expect? (p : Char → Bool) : List Char → Option (List Char)
  | c :: rest => if p c then some rest else none
  | [] => none

/-! ### Dates and times -/

/-- Year, month and day of a date. -/
structure Date where
  year : Nat
  month : Nat
  day : Nat
  deriving DecidableEq, Repr

/-- A date, whether it exists or not. -/
def date? (text : List Char) : Option (Date × List Char) := do
  let (century, rest) ← twoDigits? 100 text
  let (year, rest) ← twoDigits? 100 rest
  let rest ← expect? (· == '-') rest
  let (month, rest) ← twoDigits? 13 rest
  let rest ← expect? (· == '-') rest
  let (day, rest) ← twoDigits? 32 rest
  if month == 0 || day == 0 then none
  return (⟨century * 100 + year, month, day⟩, rest)

/-- The number of days of a month. -/
def daysIn (year month : Nat) : Nat :=
  if month == 2 then
    if year % 4 == 0 && (year % 100 != 0 || year % 400 == 0) then 29 else 28
  else if month == 4 || month == 6 || month == 9 || month == 11 then 30
  else 31

/-- Whether there is such a day. -/
def Date.isValid (d : Date) : Bool :=
  0 < d.year && d.day ≤ daysIn d.year d.month

/-- What follows a fraction of a second. -/
def skipFraction (text : List Char) : List Char :=
  match text with
  | '.' :: c :: rest => if c.isDigit then rest.dropWhile Char.isDigit else text
  | _ => text

/-- What follows a time of day. -/
def time? (text : List Char) : Option (List Char) := do
  let (_, rest) ← twoDigits? 24 text
  let rest ← expect? (· == ':') rest
  let (_, rest) ← twoDigits? 60 rest
  let rest ← expect? (· == ':') rest
  let (_, rest) ← twoDigits? 60 rest
  return skipFraction rest

/-- What follows an offset from universal time. -/
def offset? (text : List Char) : Option (List Char) :=
  match text with
  | [] => none
  | c :: rest =>
    if c == 'Z' || c == 'z' then some rest
    else if c == '+' || c == '-' then do
      let (_, rest) ← twoDigits? 24 rest
      let rest ← expect? (· == ':') rest
      let (_, rest) ← twoDigits? 60 rest
      return rest
    else none

/-- What follows a time of day and perhaps an offset, behind the mark that sets it off from a date. -/
def timeOfDate? (text : List Char) : Option (List Char) := do
  let rest ← expect? (fun c => c == 'T' || c == 't' || c == ' ') text
  let rest ← time? rest
  return (offset? rest).getD rest

/-- A date or a time. -/
def moment? (text : List Char) : Option (Except Fault (Data × List Char)) :=
  match date? text with
  | some (d, rest) => some <|
    if !d.isValid then .error ⟨.noSuchDate, text.length⟩
    else match timeOfDate? rest with
      | some rest => .ok (.moment .dateTime, rest)
      | none => .ok (.moment .date, rest)
  | none => (time? text).map fun rest => .ok (.moment .time, rest)

/-! ### Numbers -/

/-- Digits of a kind with single underscores between them: the digits, and what follows.  An
underscore counts only behind a digit. -/
def digitRunFrom (p : Char → Bool) (behindDigit : Bool) : List Char → List Char × List Char
  | [] => ([], [])
  | '_' :: d :: rest =>
    if behindDigit && p d then
      let (ds, rest) := digitRunFrom p true rest
      (d :: ds, rest)
    else ([], '_' :: d :: rest)
  | c :: rest =>
    if p c then
      let (ds, rest) := digitRunFrom p true rest
      (c :: ds, rest)
    else ([], c :: rest)

/-- Digits of a kind with single underscores between them: the digits, and what follows. -/
def digitRun (p : Char → Bool) (text : List Char) : List Char × List Char :=
  digitRunFrom p false text

/-- The number that digits write in a base. -/
def ofBase (base : Nat) (digits : List Char) : Nat :=
  digits.foldl (fun n c => base * n + (Text.hexValue? c).getD 0) 0

/-- The base and the digits that a letter behind a zero announces. -/
def base? : Char → Option (Nat × (Char → Bool))
  | 'x' => some (16, Text.isHexDigit)
  | 'b' => some (2, fun c => c == '0' || c == '1')
  | 'o' => some (8, fun c => '0' ≤ c && c ≤ '7')
  | _ => none

/-- A whole number in another base than ten. -/
def basedNumber? (text : List Char) : Option (Data × List Char) :=
  match text with
  | '0' :: letter :: rest =>
    match base? letter with
    | none => none
    | some (base, p) =>
      match digitRun p rest with
      | ([], _) => none
      | (ds, rest) => some (.int (ofBase base ds), rest)
  | _ => none

/-- The digits before the point: a zero alone, or digits that do not start with one. -/
def wholePart? : List Char → Option (List Char × List Char)
  | '0' :: rest => some (['0'], rest)
  | text =>
    match digitRun Char.isDigit text with
    | ([], _) => none
    | found => some found

/-- The digits behind a point. -/
def fraction? : List Char → Option (List Char × List Char)
  | '.' :: rest =>
    match digitRun Char.isDigit rest with
    | ([], _) => none
    | found => some found
  | _ => none

/-- Takes a sign off. -/
def sign : List Char → Bool × List Char
  | '-' :: rest => (true, rest)
  | '+' :: rest => (false, rest)
  | text => (false, text)

/-- A power of ten behind the mark `e`. -/
def exponent? : List Char → Option (Int × List Char)
  | mark :: rest =>
    if mark == 'e' || mark == 'E' then
      let (negative, rest) := sign rest
      match digitRun Char.isDigit rest with
      | ([], _) => none
      | (ds, rest) =>
        let size : Int := ofBase 10 ds
        some (if negative then -size else size, rest)
    else none
  | [] => none

/-- A decimal number. -/
def decimal? (text : List Char) : Option (Except Fault (Data × List Char)) :=
  let (negative, body) := sign text
  match wholePart? body with
  | none => none
  | some (whole, rest) => some <|
    match fraction? rest, exponent? ((fraction? rest).getD ([], rest)).2 with
    | none, none =>
      if whole.length ≤ Integer.digitLimit then
        let size : Int := ofBase 10 whole
        .ok (.int (if negative then -size else size), rest)
      else .error ⟨.tooManyDigits whole.length, text.length⟩
    | behind, power =>
      let (behind, rest) := behind.getD ([], rest)
      let (scale, rest) := power.getD (0, rest)
      .ok (.float (Binary64.ofDecimal negative (ofBase 10 (whole ++ behind))
        (scale - behind.length)), rest)

/-- A number that is written as a word. -/
def wordNumber? (text : List Char) : Option (Data × List Char) :=
  let (negative, body) := sign text
  match body with
  | 'i' :: 'n' :: 'f' :: rest => some (.float (.infinite negative), rest)
  | 'n' :: 'a' :: 'n' :: rest => some (.float .nan, rest)
  | _ => none

/-- A date, a time or a number. -/
def scalar (text : List Char) : Except Fault (Data × List Char) :=
  match moment? text with
  | some read => read
  | none =>
    match basedNumber? text with
    | some found => .ok found
    | none =>
      match decimal? text with
      | some read => read
      | none =>
        match wordNumber? text with
        | some found => .ok found
        | none => .error ⟨.value, text.length⟩

end AttributeLint.Toml
