import AttributeLint.Pattern.Input
import AttributeLint.Pattern.Regex

/-!
# Repetition

A star, a plus, a question mark or numbers in braces repeat the item before them; a question mark or a
plus behind that makes the repetition lazy or possessive.  A brace that starts no such numbers stands
for itself.
-/

namespace AttributeLint.Pattern.Repeat

/-- Repetition numbers are below this. -/
def limit : Nat := 4294967295

/-- How often an item is repeated. -/
structure Count where
  least : Nat
  most : Option Nat
  deriving DecidableEq, Repr

/-- The number that digits write, none if there are no digits. -/
def number? (digits : List Char) : Except Failure (Option Nat) :=
  if digits.isEmpty then .ok none
  else if Integer.digitLimit < digits.length then .error (.tooManyDigits digits.length)
  else
    let n := digits.foldl (fun n c => 10 * n + (c.toNat - 0x30)) 0
    if limit ≤ n then .error .repeatTooLarge else .ok (some n)

/-- The count in braces whose opening brace has been read; none if the brace stands for itself. -/
def braces? (i : Input) : Except Failure (Option (Count × Input)) := do
  let here := i.place
  if i.startsWith '\x7d' then return none
  let (low, i) ← i.takeWhile Char.isDigit (i.rest.length + 1)
  let (high, i) ← match ← i.accept ',' with
    | some i => i.takeWhile Char.isDigit (i.rest.length + 1)
    | none => pure (low, i)
  match ← i.accept '\x7d' with
  | none => return none
  | some i =>
    let least := (← number? low).getD 0
    let most ← number? high
    match most with
    | some m => if m < least then throw (.at here .leastAboveMost)
    | none => pure ()
    return some (⟨least, most⟩, i)

/-- The count that a character announces; none if the character stands for itself. -/
def count? (c : Char) (i : Input) : Except Failure (Option (Count × Input)) :=
  match c with
  | '*' => .ok (some (⟨0, none⟩, i))
  | '+' => .ok (some (⟨1, none⟩, i))
  | '?' => .ok (some (⟨0, some 1⟩, i))
  | _ => braces? i

/-- What a question mark or a plus behind a count makes of it. -/
def greed (i : Input) : Except Failure (Greed × Input) := do
  match ← i.accept '?' with
  | some i => return (.lazy, i)
  | none =>
    match ← i.accept '+' with
    | some i => return (.possessive, i)
    | none => return (.greedy, i)

/-- The items with the last of them repeated.  The count stands at `place`. -/
def onLast (place : Nat) (count : Count) (items : List Regex) (i : Input) :
    Except Failure (List Regex × Input) :=
  match items with
  | [] => .error (.at place .nothingToRepeat)
  | .anchor _ :: _ => .error (.at place .nothingToRepeat)
  | .iterate _ _ _ _ :: _ => .error (.at place .multipleRepeat)
  | r :: rest => do
    let (g, i) ← greed i
    return (.iterate g count.least count.most r.bare :: rest, i)

end AttributeLint.Pattern.Repeat
