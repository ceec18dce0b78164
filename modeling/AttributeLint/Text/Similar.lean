/-!
# Similar texts

Two texts are compared by the longest block that they have in common, the first such block of the
first text, and then in the same way by what stands before it and behind it in both.  They are similar
if at least three fifths of their characters lie in such blocks.
-/

namespace AttributeLint.Text

/-- The number of characters that two texts begin with in common. -/
def commonPrefix : List Char → List Char → Nat
  | a :: as, b :: bs => if a == b then commonPrefix as bs + 1 else 0
  | _, _ => 0

/-- A block that two texts have in common: where it starts in each, and its length. -/
structure Block where
  first : Nat
  second : Nat
  size : Nat
  deriving DecidableEq, Repr

/-- The longer of two blocks, the first of them if they are of one length. -/
def Block.longer (b d : Block) : Block :=
  if b.size < d.size then d else b

/-- The longest block that starts a text, at `first` of some longer one, and stands anywhere in another
from `second` on. -/
def longestAt (as : List Char) (first second : Nat) : List Char → Block
  | [] => ⟨first, second, 0⟩
  | b :: bs =>
    (Block.mk first second (commonPrefix as (b :: bs))).longer (longestAt as first (second + 1) bs)

/-- The longest block of a text from `first` on and another. -/
def longestBlock (first : Nat) (bs : List Char) : List Char → Block
  | [] => ⟨first, 0, 0⟩
  | a :: as => (longestAt (a :: as) first 0 bs).longer (longestBlock (first + 1) bs as)

/-- The number of characters of each of two texts in common blocks, of which there are at most as many
as the bound. -/
def inCommon : Nat → List Char → List Char → Nat
  | 0, _, _ => 0
  | bound + 1, as, bs =>
    let block := longestBlock 0 bs as
    if block.size = 0 then 0
    else
      block.size + inCommon bound (as.take block.first) (bs.take block.second) +
        inCommon bound (as.drop (block.first + block.size)) (bs.drop (block.second + block.size))

/-- Whether two texts are similar. -/
def isSimilar (a b : String) : Bool :=
  let as := a.toList
  let bs := b.toList
  3 * (as.length + bs.length) ≤ 10 * inCommon as.length as bs

end AttributeLint.Text
