/-!
# Lines

Where an index lies in a text, counted in lines and columns from one, and the reading of the three
spellings of a line break as one.
-/

namespace AttributeLint.Text

/-- Line and column of the character at an index, both counted from one. -/
def lineColumn (text : List Char) (index : Nat) : Nat × Nat :=
  (text.take index).foldl
    (fun (p : Nat × Nat) c => if c == '\n' then (p.1 + 1, 1) else (p.1, p.2 + 1)) (1, 1)

/-- Reads a carriage return, alone or before a line feed, as a line feed. -/
def unifyBreaks (text : List Char) : List Char :=
  go [] text
where
  go (done : List Char) : List Char → List Char
    | [] => done.reverse
    | '\r' :: '\n' :: rest => go ('\n' :: done) rest
    | '\r' :: rest => go ('\n' :: done) rest
    | c :: rest => go (c :: done) rest

end AttributeLint.Text
