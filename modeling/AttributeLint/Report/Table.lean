import AttributeLint.Rule.Basic

/-!
# Tables

A table has a title above it, a row of headings, and rows of cells with lines around them.  Every
column is as wide as its longest text.
-/

namespace AttributeLint.Report

/-- A character several times. -/
def times (n : Nat) (c : Char) : String :=
  String.ofList (List.replicate n c)

/-- A text with blanks behind it up to a width. -/
def padded (width : Nat) (text : String) : String :=
  text ++ times (width - text.length) ' '

/-- A text in the middle of a line of some width. -/
def centred (width : Nat) (text : String) : String :=
  let room := width - text.length
  times (room / 2) ' ' ++ text ++ times (room - room / 2) ' '

/-- The characters of a line between rows: at its left end, along the cells, between columns, and at its
right end. -/
structure Border where
  left : Char
  along : Char
  between : Char
  right : Char

/-- A table with two columns. -/
structure Table where
  title : String
  headings : String × String
  rows : List (String × String)

namespace Table

/-- The width of the longest of some texts. -/
def widest (texts : List String) : Nat :=
  texts.foldl (fun n text => max n text.length) 0

/-- The widths of the two columns. -/
def widths (t : Table) : Nat × Nat :=
  let all := t.headings :: t.rows
  (widest (all.map (·.1)), widest (all.map (·.2)))

/-- A line between rows. -/
def line (t : Table) (l : Border) : String :=
  let (a, b) := t.widths
  String.singleton l.left ++ times (a + 2) l.along ++ String.singleton l.between ++
    times (b + 2) l.along ++ String.singleton l.right

/-- A row of cells between bars. -/
def cells (t : Table) (bar : String) (texts : String × String) : String :=
  let (a, b) := t.widths
  bar ++ " " ++ padded a texts.1 ++ " " ++ bar ++ " " ++ padded b texts.2 ++ " " ++ bar

/-- The width of the whole table. -/
def width (t : Table) : Nat :=
  t.widths.1 + t.widths.2 + 7

/-- The lines of a table. -/
def lines (t : Table) : List String :=
  [centred t.width t.title, t.line ⟨'┏', '━', '┳', '┓'⟩, t.cells "┃" t.headings,
    t.line ⟨'┡', '━', '╇', '┩'⟩] ++
    t.rows.map (t.cells "│") ++ [t.line ⟨'└', '─', '┴', '┘'⟩]

end Table

/-- The table of the rules that there are. -/
def ruleTable : Table where
  title := "attrlit rules"
  headings := ("Rule", "Description")
  rows := Rule.registry

end AttributeLint.Report
