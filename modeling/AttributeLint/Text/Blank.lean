import AttributeLint.Text.Ranges

/-!
# Blank characters

Two sets are in use.  A number written as text may stand between the characters of `isBlank`; the
class of blanks that a pattern names in its Unicode mode also holds the four separators U+001C to
U+001F.
-/

namespace AttributeLint.Text

/-- The blank characters beyond ASCII. -/
def blankRanges : Ranges :=
  [(0x85, 0x85), (0xA0, 0xA0), (0x1680, 0x1680), (0x2000, 0x200A), (0x2028, 0x2029),
    (0x202F, 0x202F), (0x205F, 0x205F), (0x3000, 0x3000)]

/-- Space, tab, line feed, vertical tab, form feed and carriage return. -/
def isAsciiBlank (c : Char) : Bool :=
  c == ' ' || (0x09 ≤ c.toNat && c.toNat ≤ 0x0D)

/-- The characters that may stand around a number. -/
def isBlank (c : Char) : Bool :=
  isAsciiBlank c || blankRanges.contains c.toNat

/-- The characters that separate words in any script. -/
def isSpace (c : Char) : Bool :=
  isBlank c || (0x1C ≤ c.toNat && c.toNat ≤ 0x1F)

end AttributeLint.Text
