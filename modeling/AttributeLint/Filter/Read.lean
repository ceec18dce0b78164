import AttributeLint.Data.Basic
import AttributeLint.Filter.Expression
import AttributeLint.Filter.Fault

/-!
# Reading filter options

The shape of an object decides what it is: a single field `and`, `or` or `not` combines expressions,
and any other object is a leaf whose fields are lists of texts.  Options hold one expression, a list of
them or nothing for each of `only` and `ignore`.
-/

namespace AttributeLint.Filter

/-! ### Leaves -/

/-- The fields of a leaf. -/
def leafKeys : List String :=
  ["attributes", "attributePatterns", "components", "componentPatterns", "values", "valuePatterns"]

/-- The fields that combine expressions. -/
def combinators : List String :=
  ["and", "or", "not"]

/-- The names of fields that are not among some, in increasing order. -/
def unknownKeys (known : List String) (fields : Fields) : List String :=
  (fields.keys.filter fun key => !known.contains key).mergeSort fun a b => decide (a ≤ b)

/-- The texts of a list that holds nothing else. -/
def texts? : List Data → Option (List String)
  | [] => some []
  | .str s :: rest => (texts? rest).map (s :: ·)
  | _ :: _ => none

/-- The texts of a value that is a list of texts. -/
def textList? : Data → Option (List String)
  | .list items => texts? items
  | _ => none

/-- The lists of texts in the fields of a leaf, in their order. -/
def textLists : Fields → Except Fault (List (String × List String))
  | [] => .ok []
  | (key, d) :: rest =>
    match textList? d with
    | none => .error (.config [.field key] .notStrings)
    | some texts => do
      let lists ← textLists rest
      return (key, texts) :: lists

/-- The patterns of a list of sources from an index on. -/
def compileFrom (index : Nat) : List String → Except Fault (List Pattern)
  | [] => .ok []
  | source :: rest =>
    match Pattern.compile source with
    | .error (.malformed cause place) =>
      let spelled := Pattern.endAnchors source.toList
      let reason := (Pattern.Failure.malformed cause place).message spelled
      .error (.config [.item index] (.notPattern source reason))
    | .error failure => .error (.pattern failure)
    | .ok p => do
      let ps ← compileFrom (index + 1) rest
      return p :: ps

/-- The patterns of a list of sources. -/
def compileAll (sources : List String) : Except Fault (List Pattern) :=
  compileFrom 0 sources

/-- The texts of a field, none if the field is missing. -/
def textsOf (lists : List (String × List String)) (key : String) : List String :=
  (lists.lookup key).getD []

/-- The patterns of a field. -/
def patternsOf (lists : List (String × List String)) (key : String) : Except Fault (List Pattern) :=
  (compileAll (textsOf lists key)).mapError (·.under [.field key])

/-- The leaf that an object is. -/
def leaf (fields : Fields) : Except Fault Criteria := do
  let unknown := unknownKeys leafKeys fields
  if !unknown.isEmpty then throw (.config [] (.unknownKeys unknown))
  let lists ← textLists fields
  let attributePatterns ← patternsOf lists "attributePatterns"
  let componentPatterns ← patternsOf lists "componentPatterns"
  let valuePatterns ← patternsOf lists "valuePatterns"
  return {
    name := ⟨sortedSet (textsOf lists "attributes"), attributePatterns⟩
    component := ⟨sortedSet (textsOf lists "components"), componentPatterns⟩
    value := ⟨sortedSet (textsOf lists "values"), valuePatterns⟩ }

/-! ### Expressions -/

/-- The first combinator among the fields. -/
def combinator? (fields : Fields) : Option String :=
  combinators.find? fields.has

/-- An object that is no single combinator: a leaf, unless a combinator is among its fields. -/
def leafOnly (fields : Fields) : Except Fault Expression :=
  match combinator? fields with
  | some key => .error (.config [] (.mixed key))
  | none => Expression.criteria <$> leaf fields

namespace Expression

mutual

/-- The expression that a value is. -/
def read : Data → Except Fault Expression
  | .object [(key, d)] =>
    if key == "and" then
      Expression.and <$> (readList d).mapError (·.under [.field "and"])
    else if key == "or" then
      Expression.or <$> (readList d).mapError (·.under [.field "or"])
    else if key == "not" then
      Expression.not <$> (read d).mapError (·.under [.field "not"])
    else leafOnly [(key, d)]
  | .object fields => leafOnly fields
  | d => .error (.config [] (.notObject d.kind))

/-- The expressions of a value that is a list of them. -/
def readList : Data → Except Fault (List Expression)
  | .list items => readItems 0 items
  | _ => .error (.config [] .notExpressions)

/-- The expressions of a list from an index on. -/
def readItems (index : Nat) : List Data → Except Fault (List Expression)
  | [] => .ok []
  | d :: rest => do
    let e ← (read d).mapError (·.under [.item index])
    let es ← readItems (index + 1) rest
    return e :: es

end

/-- The expressions of a value that is one, a list of them, or nothing. -/
def readAll (d : Data) : Except Fault (List Expression) :=
  match d with
  | .null => .ok []
  | .list items => readItems 0 items
  | _ => (fun e => [e]) <$> read d

end Expression

/-! ### Options -/

/-- The fields of options. -/
def optionKeys : List String :=
  ["only", "ignore"]

/-- The options that a value is. -/
def Options.read (d : Data) : Except Located Options :=
  match d with
  | .null => .ok {}
  | .object fields => do
    let unknown := unknownKeys optionKeys fields
    if !unknown.isEmpty then throw ⟨"options", .config [] (.unknownKeys unknown)⟩
    let only ← (Expression.readAll (d.field "only")).mapError (⟨"only", ·⟩)
    let ignore ← (Expression.readAll (d.field "ignore")).mapError (⟨"ignore", ·⟩)
    return ⟨only, ignore⟩
  | _ => .error ⟨"options", .config [] (.notObject d.kind)⟩

end AttributeLint.Filter
