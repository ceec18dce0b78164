/-!
# Tokens of a pattern

A pattern is read by tokens: a backslash takes the character behind it along, any other character
stands alone.  A backslash at the very end has nothing to take.
-/

namespace AttributeLint.Pattern

/-- A piece of a pattern that is read at once. -/
inductive Token where
  | plain (c : Char)
  | escaped (c : Char)
  | dangling
  deriving DecidableEq, Repr, Inhabited

namespace Token

/-- The characters of a token. -/
def chars : Token → List Char
  | plain c => [c]
  | escaped c => ['\\', c]
  | dangling => ['\\']

/-- The number of characters of a token. -/
def width : Token → Nat
  | plain _ => 1
  | escaped _ => 2
  | dangling => 1

/-- The text of a token. -/
def text (t : Token) : String :=
  String.ofList t.chars

/-- Whether a token is one character that satisfies a test. -/
def isPlain (p : Char → Bool) : Token → Bool
  | plain c => p c
  | _ => false

end Token

/-- The tokens of a pattern. -/
def tokenize : List Char → List Token
  | [] => []
  | '\\' :: [] => [.dangling]
  | '\\' :: c :: rest => .escaped c :: tokenize rest
  | c :: rest => .plain c :: tokenize rest

end AttributeLint.Pattern
