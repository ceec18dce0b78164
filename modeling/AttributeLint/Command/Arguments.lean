import AttributeLint.Text.Similar

/-!
# Arguments

Arguments of a command are options and operands.  A long option may carry its value behind an equals
sign, letters of short options may stand together, and the last of them may carry its value.  Two
hyphens end the options.  For a long name that is not known, similar ones are suggested.
-/

namespace AttributeLint.Command

/-- An option that a command knows. -/
structure Switch where
  /-- The names with two hyphens. -/
  long : List String
  /-- The names with one hyphen and one letter. -/
  short : List String := []
  takesValue : Bool := false
  deriving DecidableEq, Repr, Inhabited

/-- A wrong use of options. -/
inductive Misuse where
  | unknown (name : String) (similar : List String)
  | needsValue (name : String)
  | takesNoValue (name : String)
  deriving DecidableEq, Repr

/-- An option that was found, with its value if it takes one. -/
structure Found where
  option : Switch
  value : Option String := none
  deriving DecidableEq, Repr, Inhabited

/-- Options and operands, each in their order. -/
structure Arguments where
  found : List Found := []
  operands : List String := []
  deriving Repr, Inhabited

/-- What one argument gives: options, and perhaps one, under a name, that waits for its value. -/
structure Reading where
  found : List Found
  waiting : Option (Switch × String) := none

/-- The option of a long name. -/
def long? (options : List Switch) (name : String) : Option Switch :=
  options.find? (·.long.contains name)

/-- Those of some names that are similar to a given one, in increasing order. -/
def similarTo (name : String) (names : List String) : List String :=
  (names.filter (Text.isSimilar · name)).mergeSort fun a b => decide (a ≤ b)

/-- The option of a short name. -/
def short? (options : List Switch) (name : String) : Option Switch :=
  options.find? (·.short.contains name)

/-- Letters of short options. -/
def letters (options : List Switch) : List Char → Except Misuse Reading
  | [] => .ok ⟨[], none⟩
  | c :: rest =>
    let name := String.ofList ['-', c]
    match short? options name with
    | none => .error (.unknown name [])
    | some option =>
      if option.takesValue then
        if rest.isEmpty then .ok ⟨[], some (option, name)⟩
        else .ok ⟨[⟨option, some (String.ofList rest)⟩], none⟩
      else do
        let reading ← letters options rest
        return { reading with found := ⟨option, none⟩ :: reading.found }

/-- The name of a long option and the value behind an equals sign. -/
def splitLong (argument : List Char) : String × Option String :=
  match argument.span (· != '=') with
  | (name, _ :: value) => (String.ofList name, some (String.ofList value))
  | (name, []) => (String.ofList name, none)

/-- An argument that starts with a hyphen. -/
def readOption (options : List Switch) (argument : List Char) : Except Misuse Reading :=
  let (name, value) := splitLong argument
  match long? options name with
  | some option =>
    match option.takesValue, value with
    | true, some value => .ok ⟨[⟨option, some value⟩], none⟩
    | true, none => .ok ⟨[], some (option, name)⟩
    | false, some _ => .error (.takesNoValue name)
    | false, none => .ok ⟨[⟨option, none⟩], none⟩
  | none =>
    match argument with
    | '-' :: '-' :: _ => .error (.unknown name (similarTo name (options.flatMap (·.long))))
    | _ => letters options (argument.drop 1)

/-- Whether an argument is read as options. -/
def isOption (argument : List Char) : Bool :=
  argument.head? == some '-' && 1 < argument.length

/-- Reads arguments.  Options may follow operands only where `mixed` says so. -/
def read (options : List Switch) (mixed : Bool) (done : Arguments) :
    List String → Except Misuse Arguments
  | [] => .ok done
  | argument :: rest =>
    if argument == "--" then .ok { done with operands := done.operands ++ rest }
    else if isOption argument.toList then do
      let reading ← readOption options argument.toList
      let done := { done with found := done.found ++ reading.found }
      match reading.waiting with
      | none => read options mixed done rest
      | some (option, name) =>
        match rest with
        | [] => .error (.needsValue name)
        | value :: rest =>
          read options mixed { done with found := done.found ++ [⟨option, some value⟩] } rest
    else if mixed then read options mixed { done with operands := done.operands ++ [argument] } rest
    else .ok { done with operands := done.operands ++ argument :: rest }

end AttributeLint.Command
