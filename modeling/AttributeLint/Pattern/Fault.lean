import AttributeLint.Number.Integer
import AttributeLint.Text.Lines
import AttributeLint.Text.Quoted

/-!
# Faults of patterns

Most faults have a place, counted in characters from the start of the pattern.  Some failures are no
faults of the grammar: numbers that are too large or too long, flags that exclude one another, and
looking behind by more than the matcher can count.
-/

namespace AttributeLint.Pattern

/-- What is wrong with a pattern. -/
inductive Cause where
  | danglingBackslash
  | badEscape (text : String)
  | incompleteEscape (text : String)
  | octalTooLarge (text : String)
  | missingBrace
  | undefinedCharacter (name : String)
  | unterminatedClass
  | badRange (first last : String)
  | nothingToRepeat
  | multipleRepeat
  | leastAboveMost
  | unterminatedGroup
  | unterminatedComment
  | unbalanced
  | unexpectedEnd
  | unknownExtension (text : String)
  | missingName (what : String)
  | unterminatedName (stop : Char)
  | badName (name : String)
  | unknownName (name : String)
  | badGroupNumber
  | redefinedName (name : String) (group old : Nat)
  | unknownGroup (group : Nat)
  | openGroup
  | groupOfLookbehind
  | tooManyBranches
  | flagsNotFirst
  | unknownFlag
  | missingFlagEnd
  | missingFlag
  | missingColon
  | localeFlag
  | incompatibleFlags
  | permanentFlag
  | wholeFlagOn
  | wholeFlagOff
  | flagOnAndOff
  | variableLookbehind
  | templateOperator (name : String)
  deriving DecidableEq, Repr

/-- Why a pattern is refused. -/
inductive Failure where
  | malformed (cause : Cause) (place : Option Nat)
  | repeatTooLarge
  | asciiAndUnicode
  | tooManyDigits (count : Nat)
  | tooFarBehind
  deriving DecidableEq, Repr

/-- A fault at a place. -/
def Failure.at (place : Nat) (cause : Cause) : Failure :=
  .malformed cause (some place)

/-- The wording of a cause. -/
def Cause.text : Cause → String
  | .danglingBackslash => "bad escape (end of pattern)"
  | .badEscape text => "bad escape " ++ text
  | .incompleteEscape text => "incomplete escape " ++ text
  | .octalTooLarge text => "octal escape value " ++ text ++ " outside of range 0-0o377"
  | .missingBrace => "missing \x7b"
  | .undefinedCharacter name => "undefined character name " ++ Text.quoted name
  | .unterminatedClass => "unterminated character set"
  | .badRange first last => "bad character range " ++ first ++ "-" ++ last
  | .nothingToRepeat => "nothing to repeat"
  | .multipleRepeat => "multiple repeat"
  | .leastAboveMost => "min repeat greater than max repeat"
  | .unterminatedGroup => "missing ), unterminated subpattern"
  | .unterminatedComment => "missing ), unterminated comment"
  | .unbalanced => "unbalanced parenthesis"
  | .unexpectedEnd => "unexpected end of pattern"
  | .unknownExtension text => "unknown extension " ++ text
  | .missingName what => "missing " ++ what
  | .unterminatedName stop => "missing " ++ String.singleton stop ++ ", unterminated name"
  | .badName name => "bad character in group name " ++ Text.quoted name
  | .unknownName name => "unknown group name " ++ Text.quoted name
  | .badGroupNumber => "bad group number"
  | .redefinedName name group old =>
    "redefinition of group name " ++ Text.quoted name ++ " as group " ++ toString group ++
      "; was group " ++ toString old
  | .unknownGroup group => "invalid group reference " ++ toString group
  | .openGroup => "cannot refer to an open group"
  | .groupOfLookbehind => "cannot refer to group defined in the same lookbehind subpattern"
  | .tooManyBranches => "conditional backref with more than two branches"
  | .flagsNotFirst => "global flags not at the start of the expression"
  | .unknownFlag => "unknown flag"
  | .missingFlagEnd => "missing -, : or )"
  | .missingFlag => "missing flag"
  | .missingColon => "missing :"
  | .localeFlag => "bad inline flags: cannot use 'L' flag with a str pattern"
  | .incompatibleFlags => "bad inline flags: flags 'a', 'u' and 'L' are incompatible"
  | .permanentFlag => "bad inline flags: cannot turn off flags 'a', 'u' and 'L'"
  | .wholeFlagOn => "bad inline flags: cannot turn on global flag"
  | .wholeFlagOff => "bad inline flags: cannot turn off global flag"
  | .flagOnAndOff => "bad inline flags: flag turned on and off"
  | .variableLookbehind => "look-behind requires fixed-width pattern"
  | .templateOperator name => "internal: unsupported template operator " ++ name

/-- The wording of a failure in a pattern.  In a pattern of several lines a place is also told by line
and column. -/
def Failure.message (source : List Char) : Failure → String
  | .malformed cause none => cause.text
  | .malformed cause (some place) =>
    let spot := Text.lineColumn source place
    let lines := if source.contains '\n' then
        " (line " ++ toString spot.1 ++ ", column " ++ toString spot.2 ++ ")"
      else ""
    cause.text ++ " at position " ++ toString place ++ lines
  | .repeatTooLarge => "the repetition number is too large"
  | .asciiAndUnicode => "ASCII and UNICODE flags are incompatible"
  | .tooManyDigits count => Integer.tooLong count
  | .tooFarBehind => "invalid SRE code"

end AttributeLint.Pattern
