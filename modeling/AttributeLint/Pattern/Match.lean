import AttributeLint.Pattern.Loop

/-!
# Matching

`Regex.run` tries the ways in which an expression can match from a cursor, in the order in which its
choices prefer them, and hands the cursor behind each to a continuation until one of these succeeds.
The registers pass from each attempt to the next.
-/

namespace AttributeLint.Pattern

/-- Whether a cursor is where an anchor wants it. -/
def Anchor.holds (f : Flags) (c : Cursor) : Anchor → Bool
  | .textStart => c.before.isEmpty
  | .lineStart => c.before.isEmpty || (f.multiline && c.before.head? == some '\n')
  | .textEnd => c.after.isEmpty
  | .lineEnd =>
    c.after.isEmpty || c.after == ['\n'] || (f.multiline && c.after.head? == some '\n')
  | .boundary => c.atBoundary f.isWord
  | .notBoundary => !(c.before.isEmpty && c.after.isEmpty) && !c.atBoundary f.isWord

/-- The surroundings of an expression in a pattern. -/
structure Setting where
  flags : Flags
  /-- Whether it stands inside a loop of turns. -/
  inLoop : Bool := false
  /-- What follows it. -/
  after : Lead := .other

namespace Setting

/-- The surroundings of an expression that something else than a character follows. -/
def closed (e : Setting) : Setting :=
  { e with after := .other }

end Setting

namespace Matcher

/-- Matches one character. -/
def one (holds : Char → Bool) : Matcher := fun c r k =>
  match c.over? holds with
  | some next => k next r
  | none => .fail r

/-- Matches a text, character by character. -/
def exactly (same : Char → Char → Bool) : List Char → Matcher
  | [] => fun c r k => k c r
  | a :: rest => fun c r k => one (same a) c r fun c r => exactly same rest c r k

/-- Tries one way if its beginning admits it, and another if that leads to nothing. -/
def either (inLoop : Bool) (lead : Lead) (first second : Matcher) : Matcher := fun c r k =>
  if lead.admits c.after then
    (first c (r.note c) k).orElse fun failed => second c (failed.restore inLoop r.marks) k
  else second c r k

/-- Goes on from a cursor if something matches there, or some characters further back. -/
def seen (body : Matcher) (width : Nat) : Matcher := fun c r k =>
  match c.back? width with
  | none => .fail r
  | some place =>
    let inner := body place (r.note place) .stop
    if inner.found then k c inner.registers else inner

/-- Goes on from a cursor if nothing matches there, or some characters further back. -/
def unseen (inLoop : Bool) (body : Matcher) (width : Nat) : Matcher := fun c r k =>
  match c.back? width with
  | none => k c r
  | some place =>
    let inner := body place (r.note place) .stop
    if inner.found then .fail inner.registers
    else k c (inner.registers.restore inLoop r.marks)

/-- Goes on behind the first way in which something matches, once and for all. -/
def once (body : Matcher) : Matcher := fun c r k =>
  let inner := body c (r.note c) .stop
  if inner.found then k inner.registers.place inner.registers
  else .fail (inner.registers.note c)

end Matcher

/-- How many characters a look-around goes back. -/
def Direction.distance : Direction → Nat
  | .ahead => 0
  | .behind width => width.least

namespace Regex

/-- Matches an expression from a cursor and goes on. -/
def run : Regex → Setting → Matcher
  | empty, _ => fun c r k => k c r
  | never, _ => fun _ r _ => .fail r
  | code negated n, e => Matcher.one fun c => e.flags.codeHolds n c != negated
  | any, e => Matcher.one fun c => e.flags.dotAll || c != '\n'
  | oneOf negated items, e => Matcher.one (classHolds e.flags negated items)
  | anchor a, e => fun c r k => if a.holds e.flags c then k c r else .fail r
  | cat r s, e => fun c regs k =>
    r.run { e with after := s.lead e.flags e.after } c regs fun c regs => s.run e c regs k
  | alt r s, e =>
    Matcher.either e.inLoop (r.lead e.flags .other) (r.run e.closed) (s.run e)
  | capture group r, e => fun c regs k =>
    r.run e.closed c (regs.mark (2 * group - 2) c) fun c regs => k c (regs.mark (2 * group - 1) c)
  | flagged on off r, e => r.run { e with flags := e.flags.switch on off }
  | iterate greed least most r, e =>
    let bounds : Bounds := ⟨least, most, e.inLoop, e.after⟩
    match r.single? e.flags with
    | some s => s.iterate bounds greed
    | none => Matcher.iterate bounds
        (r.run { e.closed with inLoop := e.inLoop || greed != .possessive }) greed
  | atomic r, e => Matcher.once (r.run e.closed)
  | look direction negated r, e =>
    if negated then Matcher.unseen e.inLoop (r.run e.closed) direction.distance
    else Matcher.seen (r.run e.closed) direction.distance
  | backref group _, e => fun c r k =>
    match r.captured? group with
    | some (first, last) =>
      Matcher.exactly e.flags.same (c.slice first last) c r k
    | none => .fail r
  | whether group yes no, e => fun c r k =>
    match r.captured? group with
    | some _ => yes.run (if no = empty then e else e.closed) c r k
    | none => no.run e c r k

/-- Whether an expression matches from a cursor on. -/
def holdsAt (r : Regex) (f : Flags) (c : Cursor) : Bool :=
  (r.run { flags := f } c { place := c } .stop).found

end Regex

end AttributeLint.Pattern
