import AttributeLint.Toml.Document
import AttributeLint.Toml.Scalars
import AttributeLint.Toml.Strings

/-!
# Reading TOML

A document is read statement by statement.  Every function here gets the characters that are still to
be read and gives back those it did not use.
-/

namespace AttributeLint.Toml

/-- A cause found at the start of a text. -/
def atText {α : Type} (text : List Char) (r : Except Cause α) : Except Fault α :=
  r.mapError fun cause => ⟨cause, text.length⟩

/-! ### Keys -/

/-- The characters of a key without quotes. -/
def isBare (c : Char) : Bool :=
  c.isAlphanum || c == '-' || c == '_'

/-- One part of a dotted key. -/
def keyPart (text : List Char) : Except Fault (String × List Char) :=
  match text with
  | '\'' :: rest => (fun p => (String.ofList p.1, p.2)) <$> literalTail rest
  | '"' :: rest => (fun p => (String.ofList p.1, p.2)) <$> basicTail false (rest.length + 1) [] rest
  | _ =>
    match text.span isBare with
    | ([], _) => .error ⟨.keyStart, text.length⟩
    | (cs, rest) => .ok (String.ofList cs, rest)

/-- A dotted key, after the parts `done`. -/
def keyFrom : Nat → Key → List Char → Except Fault (Key × List Char)
  | 0, done, text => .ok (done, text)
  | n + 1, done, text => do
    let (part, rest) ← keyPart text
    match rest.dropWhile isBlank with
    | '.' :: rest => keyFrom n (done ++ [part]) (rest.dropWhile isBlank)
    | rest => return (done ++ [part], rest)

/-- A dotted key. -/
def key (text : List Char) : Except Fault (Key × List Char) :=
  keyFrom (text.length + 1) [] text

/-- A key and the sign behind it. -/
def keyEquals (text : List Char) : Except Fault (Key × List Char) := do
  let (k, rest) ← key text
  match rest with
  | '=' :: rest => return (k, rest.dropWhile isBlank)
  | _ => throw ⟨.equals, rest.length⟩

/-! ### Values -/

/-- Adds a pair to an inline table. -/
def addInline (frozen : List Key) (k : Key) (d : Data) (table : Fields) : Except Cause Fields :=
  if isFrozen frozen k then .error (.immutable k)
  else
    let last := k.getLast?.getD ""
    changeTable false (addField (.duplicate last) last d) k.dropLast table

mutual

/-- A value at the start of a text. -/
def value : Nat → List Char → Except Fault (Data × List Char)
  | 0, text => .error ⟨.value, text.length⟩
  | n + 1, text =>
    match text with
    | '"' :: _ => (fun p => (.str (String.ofList p.1), p.2)) <$> basicString text
    | '\'' :: _ => (fun p => (.str (String.ofList p.1), p.2)) <$> literalString text
    | 't' :: 'r' :: 'u' :: 'e' :: rest => .ok (.bool true, rest)
    | 'f' :: 'a' :: 'l' :: 's' :: 'e' :: rest => .ok (.bool false, rest)
    | '[' :: rest => do
      let rest ← skipGaps (rest.length + 1) rest
      match rest with
      | ']' :: rest => return (.list [], rest)
      | rest => items n [] rest
    | '\x7b' :: rest =>
      match rest.dropWhile isBlank with
      | '\x7d' :: rest => .ok (.object [], rest)
      | rest => pairs n [] [] rest
    | _ => scalar text

/-- The items of an array up to its bracket, after the items `done`, the last of them first. -/
def items : Nat → List Data → List Char → Except Fault (Data × List Char)
  | 0, _, text => .error ⟨.value, text.length⟩
  | n + 1, done, text => do
    let (d, rest) ← value n text
    let rest ← skipGaps (rest.length + 1) rest
    match rest with
    | ']' :: rest => return (.list (d :: done).reverse, rest)
    | ',' :: rest =>
      let rest ← skipGaps (rest.length + 1) rest
      match rest with
      | ']' :: rest => return (.list (d :: done).reverse, rest)
      | rest => items n (d :: done) rest
    | rest => throw ⟨.unclosedArray, rest.length⟩

/-- The pairs of an inline table up to its brace, after the pairs in `table`. -/
def pairs : Nat → List Key → Fields → List Char → Except Fault (Data × List Char)
  | 0, _, _, text => .error ⟨.value, text.length⟩
  | n + 1, frozen, table, text => do
    let (k, rest) ← keyEquals text
    let (d, rest) ← value n rest
    let table ← atText rest (addInline frozen k d table)
    match rest.dropWhile isBlank with
    | '\x7d' :: rest => return (.object table, rest)
    | ',' :: rest =>
      let frozen := if isNest d then k :: frozen else frozen
      pairs n frozen table (rest.dropWhile isBlank)
    | rest => throw ⟨.unclosedTable, rest.length⟩

end

/-! ### Statements -/

/-- A key/value pair. -/
def pairStatement (d : Document) (text : List Char) : Except Fault (Document × List Char) := do
  let (k, rest) ← keyEquals text
  let (v, rest) ← value (2 * rest.length + 2) rest
  let d ← atText rest (d.add k v)
  return (d, rest)

/-- The header of a table, after its bracket. -/
def tableStatement (d : Document) (text : List Char) : Except Fault (Document × List Char) := do
  let (k, rest) ← key (text.dropWhile isBlank)
  let d ← atText rest (d.declare k)
  match rest with
  | ']' :: rest => return (d, rest)
  | _ => throw ⟨.tableEnd, rest.length⟩

/-- The header of the next table of an array, after its brackets. -/
def arrayStatement (d : Document) (text : List Char) : Except Fault (Document × List Char) := do
  let (k, rest) ← key (text.dropWhile isBlank)
  let d ← atText rest (d.declareNext k)
  match rest with
  | ']' :: ']' :: rest => return (d, rest)
  | _ => throw ⟨.arrayEnd, rest.length⟩

/-- A statement at the start of a text; a comment alone states nothing. -/
def statement (d : Document) (text : List Char) : Except Fault (Document × List Char) :=
  match text with
  | '[' :: '[' :: rest => arrayStatement d.settle rest
  | '[' :: rest => tableStatement d.settle rest
  | '#' :: _ => .ok (d, text)
  | c :: _ =>
    if isBare c || c == '"' || c == '\'' then pairStatement d text
    else .error ⟨.statement, text.length⟩
  | [] => .ok (d, text)

/-- The statements of a text, after those that made `d`. -/
def statements : Nat → Document → List Char → Except Fault Document
  | 0, d, _ => .ok d
  | n + 1, d, text =>
    match text.dropWhile isBlank with
    | [] => .ok d
    | '\n' :: rest => statements n d rest
    | text => do
      let (d, rest) ← statement d text
      let rest ← skipComment (rest.dropWhile isBlank)
      match rest with
      | [] => return d
      | '\n' :: rest => statements n d rest
      | rest => throw ⟨.afterStatement, rest.length⟩

/-- The value that a text writes. -/
def read (text : List Char) : Except Fault Data :=
  (fun d => .object d.fields) <$> statements (text.length + 1) {} text

end AttributeLint.Toml
