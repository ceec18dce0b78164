import AttributeLint.Pattern.Bracket
import AttributeLint.Pattern.Repeat
import AttributeLint.Pattern.State
import AttributeLint.Pattern.Switches
import AttributeLint.Text.Identifier

/-!
# Reading a pattern

`step` reads one item, opens a group or closes one; `run` repeats it to the end of the pattern or to a
parenthesis that closes nothing.  The first fault from the left is the one that is told.
-/

namespace AttributeLint.Pattern

namespace Reader

/-- A named class or a single character as an expression. -/
def ofAtom : Atom → Regex
  | .code n => .code false n
  | .category c negated => .oneOf false [.category c negated]

/-! ### References -/

/-- A reference to a group that is closed.  The reference starts at `start`, and the input stands
behind it. -/
def reference (g : Groups) (group start : Nat) (i : Input) : Except Failure Regex := do
  match g.closed? group with
  | none => throw (.at start .openGroup)
  | some width =>
    g.checkMark group i.place
    return .backref group width

/-- A backslash and digits: an octal number if there are three octal digits, else a reference. -/
def digits (g : Groups) (c : Char) (i : Input) : Except Failure (Regex × Input) := do
  let start := i.place - 2
  let (second, i) ← i.takeWhile Char.isDigit 1
  if Escape.isOctal c && second.all Escape.isOctal && !second.isEmpty then
    let (third, j) ← i.takeWhile Escape.isOctal 1
    if !third.isEmpty then
      let ds := second ++ third
      let n := Escape.ofOctal (c :: ds)
      if 0o377 < n then throw (.at start (.octalTooLarge (Escape.spelled c ds)))
      return (.code false n, j)
  let group := (c :: second).foldl (fun n d => 10 * n + (d.toNat - 0x30)) 0
  if group < g.next then
    let r ← reference g group start i
    return (r, i)
  else throw (.at (start + 1) (.unknownGroup group))

/-- An escape outside brackets. -/
def escape (g : Groups) (c : Char) (i : Input) : Except Failure (Regex × Input) := do
  match Escape.anchor? c, Escape.category? c, Escape.control? c, Escape.number? c i with
  | some a, _, _, _ => return (.anchor a, i)
  | _, some atom, _, _ => return (ofAtom atom, i)
  | _, _, some n, _ => return (.code false n, i)
  | _, _, _, some read =>
    let (n, i) ← read
    return (.code false n, i)
  | none, none, none, none =>
    if c == '0' then
      let (n, i) ← Escape.octal c i
      return (.code false n, i)
    else if c.isDigit then digits g c i
    else
      let (n, i) ← Escape.itself c i
      return (.code false n, i)

/-! ### Groups -/

/-- The name of a group, an identifier, up to the character that ends it. -/
def groupName (stop : Char) (i : Input) : Except Failure (String × Nat × Input) := do
  let (name, i) ← i.name "group name" stop
  let start := i.place - (name.length + 1)
  if !Text.isIdentifier name then throw (.at start (.badName (String.ofList name)))
  return (String.ofList name, start, i)

/-- Opens a group that captures. -/
def enterCapture (s : State) (name : Option (String × Nat)) (start : Nat) (i : Input) :
    Except Failure State := do
  let group := s.groups.next
  match name with
  | some (name, place) =>
    match List.lookup name s.groups.names with
    | some old => throw (.at place (.redefinedName name group old))
    | none => pure ()
  | none => pure ()
  let s := s.enter (.capture group) start s.level.verbose i
  return { s with groups := s.groups.openNext (name.map (·.1)) }

/-- A reference by name. -/
def namedReference (s : State) (i : Input) : Except Failure State := do
  let (name, place, i) ← groupName ')' i
  match List.lookup name s.groups.names with
  | none => throw (.at place (.unknownName name))
  | some group =>
    let r ← reference s.groups group place i
    return s.push r i

/-- What follows the letter for names: the definition of a name or a reference by one. -/
def named (s : State) (start : Nat) (i : Input) : Except Failure State := do
  match ← i.accept '<' with
  | some i =>
    let (name, place, i) ← groupName '>' i
    enterCapture s (some (name, place)) start i
  | none =>
    match ← i.accept '=' with
    | some i => namedReference s i
    | none =>
      match ← i.next with
      | (none, i) => throw (.at i.place .unexpectedEnd)
      | (some t, i) =>
        throw (.at (i.place - (t.width + 2)) (.unknownExtension ("?P" ++ t.text)))

/-- Opens a look behind. -/
def enterBehind (s : State) (start : Nat) (i : Input) : Except Failure State := do
  match ← i.next with
  | (none, i) => throw (.at i.place .unexpectedEnd)
  | (some t, i) =>
    if t = .plain '=' || t = .plain '!' then
      let mark := s.groups.mark
      let s := s.enter (.behind (t = .plain '!') mark) start s.level.verbose i
      return { s with groups := { s.groups with mark := some (mark.getD s.groups.next) } }
    else throw (.at (i.place - (t.width + 2)) (.unknownExtension ("?<" ++ t.text)))

/-- Group numbers in conditions are below this. -/
def groupLimit : Nat := 1073741823

/-- The group that a condition asks for, and what is then known of the groups. -/
def asked (g : Groups) (name : List Char) (place : Nat) : Except Failure (Nat × Groups) := do
  if Text.isIdentifier name then
    match List.lookup (String.ofList name) g.names with
    | none => throw (.at place (.unknownName (String.ofList name)))
    | some group => return (group, g)
  else
    match Integer.ofText? name with
    | some (.ofNat 0) => throw (.at place .badGroupNumber)
    | some (.ofNat group) =>
      if groupLimit ≤ group then throw (.at place (.unknownGroup group))
      return (group, g.ask group place)
    | _ => throw (.at place (.badName (String.ofList name)))

/-- Opens a choice by a condition. -/
def enterWhether (s : State) (start : Nat) (i : Input) : Except Failure State := do
  let (name, i) ← i.name "group name" ')'
  let (group, groups) ← asked s.groups name (i.place - (name.length + 1))
  groups.checkMark group i.place
  let s := s.enter (.whether group) start s.level.verbose i
  return { s with groups }

/-- Switches flags of the whole pattern, or opens a group with flags of its own. -/
def flags (s : State) (c : Char) (start : Nat) (i : Input) : Except Failure State := do
  match ← Switches.read c i with
  | (.whole on, i) =>
    if !s.outer.isEmpty || !s.level.done.isEmpty || !s.level.items.isEmpty then
      throw (.at start .flagsNotFirst)
    let flags := s.flags.union on
    return { s with flags, level := { s.level with verbose := flags.verbose }, input := i }
  | (.group on off, i) =>
    let verbose := (s.level.verbose || on.verbose) && !off.verbose
    return s.enter (.flagged on off) start verbose i

/-- What follows a parenthesis and a question mark. -/
def extension (s : State) (start : Nat) (i : Input) : Except Failure State := do
  match ← i.next with
  | (none, i) => throw (.at i.place .unexpectedEnd)
  | (some t, i) =>
    let unknown : Except Failure State :=
      .error (.at (i.place - (t.width + 1)) (.unknownExtension ("?" ++ t.text)))
    match t with
    | .plain 'P' => named s start i
    | .plain ':' => return s.enter (.flagged {} {}) start s.level.verbose i
    | .plain '#' =>
      match ← i.skipPast ')' with
      | some i => return s.goTo i
      | none => throw (.at start .unterminatedComment)
    | .plain '=' => return s.enter (.ahead false) start s.level.verbose i
    | .plain '!' => return s.enter (.ahead true) start s.level.verbose i
    | .plain '<' => enterBehind s start i
    | .plain '(' => enterWhether s start i
    | .plain '>' => return s.enter .atomic start s.level.verbose i
    | .plain c => if c == '-' || Switches.isFlag c then flags s c start i else unknown
    | _ => unknown

/-- What follows a parenthesis at `start`. -/
def group (s : State) (start : Nat) (i : Input) : Except Failure State := do
  match ← i.accept '?' with
  | some i => extension s start i
  | none => enterCapture s none start i

/-- The expression of a level that is closed, and what is then known of the groups. -/
def closed (l : Level) (g : Groups) : Regex × Groups :=
  match l.opening with
  | .whole => (l.body, g)
  | .capture group => (.capture group l.body, g.close group l.body.width)
  | .flagged on off => (.flagged on off l.body, g)
  | .atomic => (.atomic l.body, g)
  | .ahead negated => (.look .ahead negated l.body, g)
  | .behind negated mark => (.look (.behind l.body.width) negated l.body, { g with mark })
  | .whether group =>
    match l.done with
    | [] => (.whether group l.current .empty, g)
    | yes :: _ => (.whether group yes l.current, g)

/-! ### Steps -/

/-- A bar: the next alternative. -/
def bar (s : State) (i : Input) : Except Failure State := do
  match s.level.opening, s.level.done with
  | .whether _, _ :: _ => throw (.at s.input.place .tooManyBranches)
  | _, _ => pure ()
  let (_, i) ← i.next
  let level := s.level.split
  let level := if s.outer.isEmpty then { level with verbose := s.flags.verbose } else level
  return { s with level, input := i }

/-- A closing parenthesis. -/
def close (s : State) (i : Input) : Except Failure State := do
  let (_, i) ← i.next
  match s.outer with
  | [] => return s.goTo i
  | around :: outer =>
    let (r, groups) := closed s.level s.groups
    return { s with input := i, groups, level := around.push r, outer }

/-- Blanks between items, where they are skipped. -/
def isGap (c : Char) : Bool :=
  c == ' ' || (0x09 ≤ c.toNat && c.toNat ≤ 0x0D)

/-- A single character that has been read. -/
def character (s : State) (c : Char) (i : Input) : Except Failure State := do
  let start := i.place - 1
  if s.level.verbose && isGap c then return s.goTo i
  if s.level.verbose && c == '#' then
    match ← i.skipPast '\n' with
    | some i => return s.goTo i
    | none => return s.goTo ⟨[], i.rest.foldl (fun place t => place + t.width) i.place⟩
  match c with
  | '[' =>
    let (r, i) ← Bracket.read start i
    return s.push r i
  | '.' => return s.push .any i
  | '^' => return s.push (.anchor .lineStart) i
  | '$' => return s.push (.anchor .lineEnd) i
  | '(' => group s start i
  | _ =>
    if c == '*' || c == '+' || c == '?' || c == '\x7b' then
      match ← Repeat.count? c i with
      | none => return s.push (.code false c.toNat) i
      | some (count, j) =>
        let (items, j) ← Repeat.onLast start count s.level.items j
        return { s with level := { s.level with items }, input := j }
    else return s.push (.code false c.toNat) i

/-- Reads on from a token that is the first of the input. -/
def step (s : State) (t : Token) : Except Failure State := do
  match t with
  | .plain '|' => bar s s.input
  | .plain ')' => close s s.input
  | .plain c =>
    let (_, i) ← s.input.next
    character s c i
  | .escaped c =>
    let (_, i) ← s.input.next
    let (r, i) ← escape s.groups c i
    return s.push r i
  | .dangling => return s.goTo ⟨[], s.input.place⟩

/-- Reads to the end of the pattern, or to a parenthesis that closes nothing. -/
def run : Nat → State → Except Failure State
  | 0, s => .ok s
  | n + 1, s =>
    match s.input.rest with
    | [] => .ok s
    | t :: _ => if t = .plain ')' && s.outer.isEmpty then .ok s else do run n (← step s t)

/-- What a pattern was read into: its expression and its flags. -/
structure Parsed where
  regex : Regex
  flags : Flags
  deriving DecidableEq, Repr, Inhabited

/-- The end of reading: all groups are closed, the flags agree, and the groups asked for exist. -/
def finish (s : State) : Except Failure Parsed := do
  if !s.outer.isEmpty then throw (.at s.level.start .unterminatedGroup)
  if s.flags.ascii && s.flags.unicode then throw .asciiAndUnicode
  if !s.input.rest.isEmpty then throw (.at s.input.place .unbalanced)
  match s.groups.asked.find? fun a => s.groups.next ≤ a.1 with
  | some (group, place) => throw (.at place (.unknownGroup group))
  | none => return ⟨s.level.body, s.flags⟩

end Reader

/-- Reads a pattern in which named classes are those of ASCII. -/
def parse (source : List Char) : Except Failure Reader.Parsed := do
  let input ← Input.ofChars source
  let start : State :=
    { input, flags := { ascii := true }, level := { opening := .whole, start := 0, verbose := false } }
  let last ← Reader.run input.rest.length start
  Reader.finish last

end AttributeLint.Pattern
