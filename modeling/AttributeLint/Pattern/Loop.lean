import AttributeLint.Pattern.Registers
import AttributeLint.Pattern.Single

/-!
# Loops

Repetitions of single characters count first and then give back, or take, one character at a time.
Repetitions of anything else take turns: first those that have to be made, then optional ones, as
many or as few as possible.  An optional turn never starts where the optional turn before it started.

A possessive repetition does not reconsider its turns.  It goes on at the place in the register, which
is where the last turn ended or, if a turn was tried in vain, the last place noted in that attempt.
-/

namespace AttributeLint.Pattern

/-- How often something is repeated, and in which surroundings. -/
structure Bounds where
  least : Nat
  most : Option Nat
  /-- Whether the repetition stands inside a loop of turns. -/
  inLoop : Bool
  /-- What follows the repetition. -/
  after : Lead

namespace Bounds

/-- The greatest number of characters that can be counted from a cursor. -/
def limit (b : Bounds) (c : Cursor) : Nat :=
  match b.most with
  | some most => min most c.after.length
  | none => c.after.length

/-- The greatest number of optional turns that can be made in a text. -/
def optional (b : Bounds) (c : Cursor) : Nat :=
  let room := c.index + c.after.length + 1
  match b.most with
  | some most => min (most - b.least) room
  | none => room

end Bounds

namespace Single

/-- Counts from a cursor: the number of characters, the cursor behind them, and the registers. -/
def count (s : Single) (limit : Nat) (c : Cursor) (r : Registers) : Nat × Cursor × Registers :=
  let (n, last) := c.count s.holds limit
  (n, last, r.note (if s.moves then last else c))

/-- Goes on from a cursor.  Where a character is known to follow, other places are passed over. -/
def goOn (after : Lead) (k : Continuation) : Continuation := fun c r =>
  match after with
  | .code n => if (Lead.code n).admits c.after then k c (r.note c) else .fail r
  | _ => k c (r.note c)

/-- Goes on from a cursor, or from one up to so many characters further back. -/
def giveBack (b : Bounds) (marks : List (Option Nat)) (k : Continuation) :
    Nat → Cursor → Registers → Attempt
  | 0, c, r => (goOn b.after k c r).orElse fun r => .fail (r.restore b.inLoop marks)
  | n + 1, c, r =>
    (goOn b.after k c r).orElse fun r =>
      giveBack b marks k n c.previous (r.restore b.inLoop marks)

/-- Goes on from a cursor, or from one up to so many characters further on. -/
def take (s : Single) (b : Bounds) (marks : List (Option Nat)) (k : Continuation) :
    Nat → Cursor → Registers → Attempt
  | 0, c, r =>
    (k c (r.note c)).orElse fun r =>
      .fail (s.count 1 c (r.restore b.inLoop marks)).2.2
  | n + 1, c, r =>
    (k c (r.note c)).orElse fun r =>
      match s.count 1 c (r.restore b.inLoop marks) with
      | (0, _, r) => .fail r
      | (_, next, r) => take s b marks k n next r

/-- A single character as often as possible. -/
def greedy (s : Single) (b : Bounds) : Matcher := fun c r k =>
  if c.after.length < b.least then .fail r
  else
    let (n, last, r) := s.count (b.limit c) c r
    if n < b.least then .fail r else giveBack b r.marks k (n - b.least) last r

/-- A single character as seldom as possible. -/
def lazy (s : Single) (b : Bounds) : Matcher := fun c r k =>
  if c.after.length < b.least then .fail r
  else
    let (n, first, r) := s.count b.least c r
    if n < b.least then .fail r else take s b r.marks k (b.optional c) first r

/-- A single character as often as possible, once and for all. -/
def possessive (s : Single) (b : Bounds) : Matcher := fun c r k =>
  if c.after.length < b.least then .fail r
  else
    let (n, last, r) := s.count (b.limit c) c r
    if n < b.least then .fail r else k last r

/-- A single character again and again. -/
def iterate (s : Single) (b : Bounds) : Greed → Matcher
  | .greedy => s.greedy b
  | .lazy => s.lazy b
  | .possessive => s.possessive b

end Single

namespace Matcher

/-- Goes on behind the last turn. -/
def leave : Matcher := fun c r k =>
  (k c (r.note c)).orNote c

/-- Turns that have to be made, before the optional ones. -/
def required (body rest : Matcher) : Nat → Matcher
  | 0 => rest
  | n + 1 => fun c r k =>
    (body c (r.note c) fun c r => required body rest n c r k).orNote c

/-- Up to so many optional turns, as many as possible.  The last optional turn started at `last`. -/
def greedy (body : Matcher) : Nat → Option Nat → Matcher
  | 0, _ => leave
  | n + 1, last => fun c r k =>
    if last = some c.index then leave c r k
    else
      (body c (r.note c) fun d r => greedy body n (some c.index) d r k).orElse fun failed =>
        leave c (failed.restore true r.marks) k

/-- Up to so many optional turns, as few as possible. -/
def lazy (inLoop : Bool) (body : Matcher) : Nat → Option Nat → Matcher
  | 0, _ => fun c r k =>
    (k c (r.note c)).orElse fun failed => .fail ((failed.restore inLoop r.marks).note c)
  | n + 1, last => fun c r k =>
    (k c (r.note c)).orElse fun failed =>
      let r := (failed.restore inLoop r.marks).note c
      if last = some c.index then .fail r
      else (body c r fun d r => lazy inLoop body n (some c.index) d r k).orNote c

/-- Turns that have to be made, none of which is reconsidered. -/
def requiredOnce (body : Matcher) : Nat → Registers → Attempt
  | 0, r => ⟨true, r⟩
  | n + 1, r =>
    let turn := body r.place r .stop
    if turn.found then requiredOnce body n turn.registers else turn

/-- Up to so many optional turns, none of which is reconsidered. -/
def possessive (body : Matcher) : Nat → Option Nat → Registers → Registers
  | 0, _, r => r
  | n + 1, last, r =>
    if last = some r.place.index then r
    else
      let turn := body r.place r .stop
      if turn.found then possessive body n (some r.place.index) turn.registers
      else turn.registers.restore true r.marks

/-- Turns of anything, again and again. -/
def iterate (b : Bounds) (body : Matcher) : Greed → Matcher
  | .greedy => fun c => required body (greedy body (b.optional c) none) b.least c
  | .lazy => fun c => required body (lazy b.inLoop body (b.optional c) none) b.least c
  | .possessive => fun c r k =>
    let turns := requiredOnce body b.least (r.note c)
    if turns.found then
      let r := possessive body (b.optional c) none turns.registers
      k r.place r
    else .fail (turns.registers.note c)

end Matcher

end AttributeLint.Pattern
