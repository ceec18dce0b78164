import AttributeLint.Data.Basic

/-!
# The opening elements of a tree

`walk` lists the nodes of opening elements in the order of the text.  It keeps the values that are
still to be visited on a stack, so that the depth of a tree does not matter.  Fields that hold
positions, comments or ways back to a parent are not entered.
-/

namespace AttributeLint.Data

mutual

/-- The number of values in a value, itself among them. -/
def weight : Data → Nat
  | list items => weights items + 1
  | object fields => fieldWeights fields + 1
  | _ => 1

/-- The number of values in a list of values. -/
def weights : List Data → Nat
  | [] => 0
  | d :: rest => weight d + weights rest

/-- The number of values in the fields of an object. -/
def fieldWeights : List (String × Data) → Nat
  | [] => 0
  | (_, d) :: rest => weight d + fieldWeights rest

end

@[simp] theorem weights_nil : weights [] = 0 := by
  simp [weights]

@[simp] theorem weights_cons (d : Data) (rest : List Data) :
    weights (d :: rest) = weight d + weights rest := by
  simp [weights]

@[simp] theorem weights_append (a b : List Data) : weights (a ++ b) = weights a + weights b := by
  induction a with
  | nil => simp
  | cons d rest ih => simp [ih, Nat.add_assoc]

theorem weight_pos (d : Data) : 0 < weight d := by
  cases d <;> simp [weight]

end AttributeLint.Data

namespace AttributeLint.Syntax

/-- The fields that are not entered. -/
def isSkipped (key : String) : Bool :=
  key == "loc" || key == "range" || key == "parent" || key == "tokens" || key == "comments"

/-- Whether a value has values in it. -/
def isBranch : Data → Bool
  | .list _ => true
  | .object _ => true
  | _ => false

/-- The values of the fields that are entered. -/
def children : Fields → List Data
  | [] => []
  | (key, d) :: rest =>
    if !isSkipped key && isBranch d then d :: children rest else children rest

theorem weights_children_le (fields : Fields) :
    Data.weights (children fields) ≤ Data.fieldWeights fields := by
  induction fields with
  | nil => simp [children]
  | cons field rest ih =>
    obtain ⟨key, d⟩ := field
    rw [children, Data.fieldWeights]
    split
    · rw [Data.weights_cons]; omega
    · omega

/-- Whether the fields are those of an opening element. -/
def isOpening (fields : Fields) : Bool :=
  match fields.get? "type" with
  | some (.str type) => type == "JSXOpeningElement"
  | _ => false

/-- The opening elements in the values on a stack, from its top on. -/
def walk (stack : List Data) : List Fields :=
  match stack with
  | [] => []
  | .object fields :: rest =>
    if isOpening fields then fields :: walk (children fields ++ rest)
    else walk (children fields ++ rest)
  | .list items :: rest => walk (items ++ rest)
  | _ :: rest => walk rest
termination_by Data.weights stack
decreasing_by
  · have := weights_children_le fields
    simp only [Data.weights_append, Data.weights_cons, Data.weight]; omega
  · have := weights_children_le fields
    simp only [Data.weights_append, Data.weights_cons, Data.weight]; omega
  · simp only [Data.weights_append, Data.weights_cons, Data.weight]; omega
  · simpa only [Data.weights_cons] using Nat.lt_add_of_pos_left (Data.weight_pos _)

/-- The opening elements of a tree. -/
def openings (tree : Data) : List Fields :=
  walk [tree]

end AttributeLint.Syntax
