import AttributeLint.Proofs.Filter.Polarity
import AttributeLint.Proofs.Filter.SurfaceForms
import AttributeLint.Proofs.Pattern.Words

/-!
# Plain text in leaves

Each of the three texts that are known of an attribute can be asked for by name or by pattern.  For a text
without special characters, the pattern that is anchored at both ends asks for the same as the name, and
the pattern without anchors asks for the text as a part (`patterns_agree_with_names`).
-/

namespace AttributeLint.Filter

open Pattern (compile_enclosed compile_word special)

/-- What a leaf can ask for. -/
inductive Subject
  | name
  | component
  | value
  deriving Repr, DecidableEq

namespace Subject

/-- The key of a leaf for the names. -/
def nameKey : Subject → String
  | name => "attributes"
  | component => "components"
  | value => "values"

/-- The key of a leaf for the patterns. -/
def patternKey : Subject → String
  | name => "attributePatterns"
  | component => "componentPatterns"
  | value => "valuePatterns"

/-- The text of an attribute that is asked for. -/
def text (d : Descriptor) : Subject → String
  | name => d.name
  | component => d.component
  | value => d.value

variable (s : Subject)

theorem nameKey_mem : s.nameKey ∈ leafKeys := by
  cases s <;> decide

theorem nameKey_not_mem : s.nameKey ∉ patternKeys := by
  cases s <;> decide

theorem patternKey_mem : s.patternKey ∈ leafKeys := by
  cases s <;> decide

theorem textMatches_nameKey (d : Descriptor) (w : String) :
    textMatches d s.nameKey w = (w == s.text d) := by
  cases s <;> rfl

theorem textMatches_patternKey (d : Descriptor) (source : String) :
    textMatches d s.patternKey source = sourceFound (s.text d) source := by
  cases s <;> rfl

/-- A leaf with one name holds of the attributes with that name. -/
theorem read_name (w : String) :
    ∃ x, Expression.read (smallLeaf s.nameKey w) = .ok x ∧
      ∀ d, x.holds d = true ↔ s.text d = w := by
  have hp : s.nameKey ∈ patternKeys → ∃ p, Pattern.compile w = .ok p :=
    fun h => absurd h s.nameKey_not_mem
  obtain ⟨x, hx⟩ := read_complete (.leaf (isLeaf_small s.nameKey_mem hp))
  refine ⟨x, hx, fun d => ?_⟩
  rw [holds_of_read hx, ← smallLeaf, selects_small s.nameKey_mem hp, textMatches_nameKey, beq_iff_eq,
    eq_comm]

/-- A leaf with one pattern holds of the attributes that the pattern is found in. -/
theorem read_pattern {source : String} {p : Pattern} (hp : Pattern.compile source = .ok p) :
    ∃ x, Expression.read (smallLeaf s.patternKey source) = .ok x ∧
      ∀ d, x.holds d = p.search (s.text d) := by
  have hcompiles : s.patternKey ∈ patternKeys → ∃ p, Pattern.compile source = .ok p :=
    fun _ => ⟨p, hp⟩
  obtain ⟨x, hx⟩ := read_complete (.leaf (isLeaf_small s.patternKey_mem hcompiles))
  refine ⟨x, hx, fun d => ?_⟩
  rw [holds_of_read hx, ← smallLeaf, selects_small s.patternKey_mem hcompiles,
    textMatches_patternKey, sourceFound, hp]

end Subject

/-- **On plain text, patterns agree with names.**  Let a text have no special characters.  The three
leaves that ask for it by its name, by the pattern between anchors and by the pattern alone can be read;
the first two hold of the same attributes, which are those with that text, and the third holds of the
attributes with a text that it is part of. -/
theorem patterns_agree_with_names (s : Subject) (w : String) (hw : ∀ c ∈ w.toList, c ∉ special) :
    ∃ named anchored plain : Expression,
      Expression.read (smallLeaf s.nameKey w) = .ok named ∧
      Expression.read (smallLeaf s.patternKey ("^" ++ w ++ "$")) = .ok anchored ∧
      Expression.read (smallLeaf s.patternKey w) = .ok plain ∧
      ∀ d : Descriptor,
        anchored.holds d = named.holds d ∧
        (named.holds d = true ↔ s.text d = w) ∧
        (plain.holds d = true ↔ w.toList <:+: (s.text d).toList) := by
  obtain ⟨p, hp, hanchored⟩ := compile_enclosed hw
  obtain ⟨q, hq, hplain⟩ := compile_word hw
  obtain ⟨named, hread, hnamed⟩ := s.read_name w
  obtain ⟨anchored, hreadp, hholdsp⟩ := s.read_pattern hp
  obtain ⟨plain, hreadq, hholdsq⟩ := s.read_pattern hq
  refine ⟨named, anchored, plain, hread, hreadp, hreadq, fun d => ⟨?_, hnamed d, ?_⟩⟩
  · rw [Bool.eq_iff_iff, hholdsp, hanchored, hnamed]
  · rw [hholdsq, hplain]

/-- A text with a blank, asked for in a value that ends in a line break: the name and the pattern between
anchors say no, and the pattern alone says yes. -/
theorem patterns_agree_with_names_lineBreak :
    let w := "fr fr"
    let d : Descriptor := ⟨"Button", "size", "fr fr\n"⟩
    (∀ c ∈ w.toList, c ∉ special) ∧
      ∃ named anchored plain : Expression,
        Expression.read (smallLeaf "values" w) = .ok named ∧
        Expression.read (smallLeaf "valuePatterns" "^fr fr$") = .ok anchored ∧
        Expression.read (smallLeaf "valuePatterns" w) = .ok plain ∧
        named.holds d = false ∧ anchored.holds d = false ∧ plain.holds d = true := by
  intro w d
  have hw : ∀ c ∈ w.toList, c ∉ special := by simp [w, special]
  obtain ⟨named, anchored, plain, hn, ha, hp, hall⟩ := patterns_agree_with_names .value w hw
  obtain ⟨hsame, hname, hpart⟩ := hall d
  have hnamed : named.holds d = false := by
    rw [← Bool.not_eq_true, hname]
    decide
  refine ⟨hw, named, anchored, plain, hn, ha, hp, hnamed, hsame.trans hnamed, hpart.mpr ?_⟩
  decide

end AttributeLint.Filter
