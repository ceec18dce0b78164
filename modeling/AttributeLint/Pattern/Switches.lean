import AttributeLint.Pattern.Flags
import AttributeLint.Pattern.Input
import AttributeLint.Text.Letter

/-!
# Flags written in a pattern

The letters behind a parenthesis and a question mark switch flags on, those behind a hyphen switch
them off.  Closed at once they are meant for the whole pattern, and with a colon for one group.
-/

namespace AttributeLint.Pattern.Switches

/-- What the letters are meant for. -/
inductive Scope where
  | whole (on : Flags)
  | group (on off : Flags)
  deriving DecidableEq, Repr

/-- Whether a letter names a flag. -/
def isFlag (c : Char) : Bool :=
  c == 'L' || (Flags.ofLetter? c).isSome

/-- The fault of a token that is no flag: one for letters, another for anything else. -/
def noFlag (t : Token) (otherwise : Cause) (i : Input) : Failure :=
  .at (i.place - t.width) (if t.isPlain Text.isLetter then .unknownFlag else otherwise)

/-- Switches on the flag of a letter behind which the input stands. -/
def switchOn (on : Flags) (c : Char) (i : Input) : Except Failure Flags :=
  match Flags.ofLetter? c with
  | none => .error (.at i.place .localeFlag)
  | some flag =>
    let on := on.union flag
    if on.ascii && on.unicode then .error (.at i.place .incompatibleFlags) else .ok on

/-- Switches off the flag of a letter behind which the input stands. -/
def switchOff (off : Flags) (c : Char) (i : Input) : Except Failure Flags :=
  match Flags.ofLetter? c with
  | none => .error (.at i.place .permanentFlag)
  | some flag =>
    if flag.ascii || flag.unicode then .error (.at i.place .permanentFlag)
    else .ok (off.union flag)

/-- The letters that switch on, from one that is already read, up to the character that ends them. -/
def ons : Nat → Flags → Char → Input → Except Failure (Flags × Char × Input)
  | 0, _, _, i => .error (.at i.place .missingFlagEnd)
  | n + 1, on, c, i => do
    let on ← switchOn on c i
    match ← i.next with
    | (none, i) => throw (.at i.place .missingFlagEnd)
    | (some t, i) =>
      match t with
      | .plain c =>
        if c == ')' || c == '-' || c == ':' then return (on, c, i)
        else if isFlag c then ons n on c i
        else throw (noFlag t .missingFlagEnd i)
      | _ => throw (noFlag t .missingFlagEnd i)

/-- The letters that switch off, from one that is already read, up to the colon. -/
def offs : Nat → Flags → Char → Input → Except Failure (Flags × Input)
  | 0, _, _, i => .error (.at i.place .missingColon)
  | n + 1, off, c, i => do
    let off ← switchOff off c i
    match ← i.next with
    | (none, i) => throw (.at i.place .missingColon)
    | (some t, i) =>
      match t with
      | .plain c =>
        if c == ':' then return (off, i)
        else if isFlag c then offs n off c i
        else throw (noFlag t .missingColon i)
      | _ => throw (noFlag t .missingColon i)

/-- The letters behind a hyphen. -/
def behindHyphen (i : Input) : Except Failure (Flags × Input) := do
  match ← i.next with
  | (none, i) => throw (.at i.place .missingFlag)
  | (some t, i) =>
    match t with
    | .plain c =>
      if isFlag c then offs (i.rest.length + 1) {} c i else throw (noFlag t .missingFlag i)
    | _ => throw (noFlag t .missingFlag i)

/-- The flags from a letter or hyphen on that is already read. -/
def read (c : Char) (i : Input) : Except Failure (Scope × Input) := do
  let (on, stop, i) ← if c == '-' then pure ({}, c, i) else ons (i.rest.length + 1) {} c i
  if stop == ')' then return (.whole on, i)
  if on.template then throw (.at (i.place - 1) .wholeFlagOn)
  let (off, i) ← if stop == '-' then behindHyphen i else pure ({}, i)
  if off.template then throw (.at (i.place - 1) .wholeFlagOff)
  if on.meets off then throw (.at (i.place - 1) .flagOnAndOff)
  return (.group on off, i)

end AttributeLint.Pattern.Switches
