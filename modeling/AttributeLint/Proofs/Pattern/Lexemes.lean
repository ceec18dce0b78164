import AttributeLint.Pattern.Anchors
import Mathlib

/-!
# Anchors, lexeme by lexeme

A pattern is a row of lexemes: a backslash with what it escapes, a class from its bracket to the next closing
one that is not escaped, or a single character.  The scan of `endAnchors`
knows no lexemes, only whether it stands between brackets or behind a backslash.  It does the same as going
through the lexemes and spelling out those that are a dollar sign.

* `IsLexeme`, `Lexed`: the lexemes, and a text split into lexemes each of which is as long as it can be.
* `Complete`: the lexemes that no lexeme goes on from.  A lexeme is as long as it can be exactly if it is
  complete or if nothing stands behind it (`longest_iff`).
* `Lexed.unique`, `exists_lexed`: each text is split in exactly one way.
* `endAnchors_of_lexed`: the scan goes lexeme by lexeme.  Between two lexemes it is where it was at first.
* `Lexed.map_spellOut`, `Lexed.append`: what is spelled out splits as before, and so do two texts in a row if
  the first one ends with a complete lexeme.
* `endAnchors_lexeme_by_lexeme`: **the whole, with what follows from it for texts that are spelled out twice
  and for texts in a row.**
-/

namespace AttributeLint.Pattern

/-! ## Lexemes -/

/-- What may stand between brackets: escapes, and characters other than a backslash and a closing
bracket. -/
inductive Inside : List Char → Prop
  | nil : Inside []
  | escape (c : Char) {body : List Char} (h : Inside body) : Inside ('\\' :: c :: body)
  | plain {c : Char} {body : List Char} (hb : c ≠ '\\') (hc : c ≠ ']') (h : Inside body) :
      Inside (c :: body)

/-- A lexeme.  A class that is not closed may end behind a backslash. -/
inductive IsLexeme : List Char → Prop
  | escape (c : Char) : IsLexeme ['\\', c]
  | closed {body : List Char} (h : Inside body) : IsLexeme ('[' :: (body ++ [']']))
  | unclosed {body : List Char} (h : Inside body) : IsLexeme ('[' :: body)
  | dangling {body : List Char} (h : Inside body) : IsLexeme ('[' :: (body ++ ['\\']))
  | single {c : Char} (h : c ≠ '[') : IsLexeme [c]

/-- A lexeme that is as long as it can be before a given rest. -/
def Longest (t rest : List Char) : Prop :=
  IsLexeme t ∧ ∀ u, IsLexeme u → u <+: t ++ rest → u.length ≤ t.length

/-- A text split into lexemes, from its beginning on, each of which is as long as it can be. -/
inductive Lexed : List Char → List (List Char) → Prop
  | nil : Lexed [] []
  | cons {t rest : List Char} {lexemes : List (List Char)} (ht : Longest t rest)
      (h : Lexed rest lexemes) : Lexed (t ++ rest) (t :: lexemes)

/-- A lexeme that is whole: not a class without its closing bracket, and no backslash without what it
escapes. -/
inductive Complete : List Char → Prop
  | escape (c : Char) : Complete ['\\', c]
  | closed {body : List Char} (h : Inside body) : Complete ('[' :: (body ++ [']']))
  | single {c : Char} (hb : c ≠ '\\') (hc : c ≠ '[') : Complete [c]

/-- What a lexeme becomes. -/
def spellOut (t : List Char) : List Char :=
  if t = ['$'] then ['\\', 'Z'] else t

/-! ## Which lexemes are as long as they can be -/

theorem Complete.isLexeme {t : List Char} (h : Complete t) : IsLexeme t := by
  cases h with
  | escape c => exact .escape c
  | closed h => exact .closed h
  | single _ hc => exact .single hc

theorem IsLexeme.ne_nil {t : List Char} (h : IsLexeme t) : t ≠ [] := by
  cases h <;> exact List.cons_ne_nil _ _

theorem Inside.append {body more : List Char} (h : Inside body) (hmore : Inside more) :
    Inside (body ++ more) := by
  induction h with
  | nil => exact hmore
  | escape c _ ih => exact .escape c ih
  | plain hb hc _ ih => exact .plain hb hc ih

/-- What stands between brackets does not reach behind a closing bracket. -/
theorem Inside.of_append {other : List Char} (h : Inside other) :
    ∀ {body tail rest : List Char}, Inside body → other ++ tail = body ++ ']' :: rest →
      ∃ middle, tail = middle ++ ']' :: rest := by
  induction h with
  | nil => exact fun {body} _ _ _ he => ⟨body, he⟩
  | escape c _ ih =>
    intro body tail rest hbody he
    cases hbody with
    | nil => simp at he
    | escape c' hbody =>
      simp only [List.cons_append, List.cons.injEq, true_and] at he
      exact ih hbody he.2
    | plain hb hc hbody =>
      simp only [List.cons_append, List.cons.injEq] at he
      exact absurd he.1.symm hb
  | plain hb hc _ ih =>
    intro body tail rest hbody he
    cases hbody with
    | nil =>
      simp only [List.cons_append, List.nil_append, List.cons.injEq] at he
      exact absurd he.1 hc
    | escape c' hbody =>
      simp only [List.cons_append, List.cons.injEq] at he
      exact absurd he.1 hb
    | plain hb' hc' hbody =>
      simp only [List.cons_append, List.cons.injEq] at he
      exact ih hbody he.2

/-- A class that is closed does not go on: at most one character stands behind the inside of a class. -/
theorem Inside.closed_end {body other tail rest : List Char} (hbody : Inside body)
    (hother : Inside other) (htail : tail.length ≤ 1)
    (he : '[' :: (body ++ [']']) ++ rest = '[' :: (other ++ tail)) : rest = [] := by
  have he : other ++ tail = body ++ ']' :: rest := by simpa using he.symm
  obtain ⟨middle, rfl⟩ := hother.of_append hbody he
  rw [List.length_append, List.length_cons] at htail
  exact List.eq_nil_of_length_eq_zero (by omega)

/-- No lexeme goes on from a complete one. -/
theorem Complete.end_of_append {t rest : List Char} (ht : Complete t) (hu : IsLexeme (t ++ rest)) :
    rest = [] := by
  generalize he : t ++ rest = u at hu
  cases ht with
  | escape c =>
    cases hu with
    | escape c' => exact (by simpa using he : c = c' ∧ rest = []).2
    | single _ => simp at he
    | closed _ | unclosed _ | dangling _ => simp at he
  | closed hbody =>
    cases hu with
    | escape c' => simp at he
    | closed hother => exact hbody.closed_end hother le_rfl he
    | unclosed hother =>
      have htail : ([] : List Char).length ≤ 1 := by decide
      exact hbody.closed_end hother htail (by rwa [List.append_nil])
    | dangling hother => exact hbody.closed_end hother le_rfl he
    | single _ => simp at he
  | single hb hc =>
    cases hu with
    | escape c' => simp at he; exact absurd he.1 hb
    | single _ => simpa using (List.cons.inj he).2
    | closed _ | unclosed _ | dangling _ => exact absurd (List.cons.inj he).1 hc

/-- What is not complete goes on with whatever comes next. -/
theorem IsLexeme.extends {t : List Char} (ht : IsLexeme t) (hc : ¬Complete t) (c : Char) :
    IsLexeme (t ++ [c]) := by
  cases ht with
  | escape c' => exact absurd (.escape c') hc
  | closed h => exact absurd (.closed h) hc
  | @unclosed body h =>
    by_cases hclose : c = ']'
    · rw [hclose]
      exact .closed h
    · by_cases hback : c = '\\'
      · rw [hback]
        exact .dangling h
      · exact .unclosed (h.append (.plain hback hclose .nil))
  | @dangling body h =>
    have hlonger : '[' :: (body ++ ['\\']) ++ [c] = '[' :: (body ++ ['\\', c]) := by simp
    rw [hlonger]
    exact .unclosed (h.append (.escape c .nil))
  | @single c' h =>
    by_cases hback : c' = '\\'
    · rw [hback]
      exact .escape c
    · exact absurd (.single hback h) hc

/-- A lexeme is as long as it can be exactly if it is complete or at the end. -/
theorem longest_iff {t rest : List Char} :
    Longest t rest ↔ IsLexeme t ∧ (Complete t ∨ rest = []) := by
  constructor
  · rintro ⟨ht, hmax⟩
    refine ⟨ht, or_iff_not_imp_left.mpr fun hc => ?_⟩
    cases rest with
    | nil => rfl
    | cons c rest =>
      have hpre : t ++ [c] <+: t ++ c :: rest := ⟨rest, by simp⟩
      have hlong := hmax _ (ht.extends hc c) hpre
      simp at hlong
  · rintro ⟨ht, hend⟩
    refine ⟨ht, fun u hu hpre => ?_⟩
    by_contra hlong
    obtain ⟨more, rfl⟩ : t <+: u :=
      List.prefix_of_prefix_length_le (List.prefix_append t rest) hpre (by omega)
    rcases hend with hc | rfl
    · rw [hc.end_of_append hu, List.append_nil] at hlong
      omega
    · rw [List.append_nil] at hpre
      exact hlong hpre.length_le

/-! ## The one way to split a text -/

theorem Lexed.unique {source : List Char} {lexemes : List (List Char)} (h : Lexed source lexemes) :
    ∀ {others}, Lexed source others → others = lexemes := by
  induction h with
  | nil =>
    intro others ho
    generalize he : ([] : List Char) = empty at ho
    cases ho with
    | nil => rfl
    | cons hu _ => exact absurd (List.append_eq_nil_iff.mp he.symm).1 hu.1.ne_nil
  | @cons t rest lexemes ht _ ih =>
    intro others ho
    generalize he : t ++ rest = source at ho
    cases ho with
    | nil => exact absurd (List.append_eq_nil_iff.mp he).1 ht.1.ne_nil
    | @cons u rest' others hu ho =>
      -- Each of the two first lexemes is a beginning of the text, so neither is the longer one.
      have hle : t.length ≤ u.length := hu.2 t ht.1 ⟨rest, he⟩
      have hge : u.length ≤ t.length := ht.2 u hu.1 ⟨rest', he.symm⟩
      obtain ⟨rfl, rfl⟩ := List.append_inj he (by omega)
      rw [ih ho]

/-- Every text that is not empty begins with a lexeme that is as long as it can be. -/
theorem exists_longest (c : Char) (source : List Char) :
    ∃ t rest, c :: source = t ++ rest ∧ Longest t rest := by
  classical
  let P : Nat → Prop := fun k => IsLexeme ((c :: source).take k)
  have hone : P 1 := by
    by_cases hc : c = '['
    · show IsLexeme [c]
      rw [hc]
      exact .unclosed .nil
    · exact .single hc
  let k := Nat.findGreatest P (c :: source).length
  have hk : P k := Nat.findGreatest_spec (by simp) hone
  refine ⟨(c :: source).take k, (c :: source).drop k, (List.take_append_drop _ _).symm, hk, ?_⟩
  intro u hu hpre
  rw [List.take_append_drop] at hpre
  have hle : u.length ≤ (c :: source).length := hpre.length_le
  have hge : u.length ≤ k := by
    refine Nat.le_findGreatest hle ?_
    show IsLexeme _
    rwa [← List.prefix_iff_eq_take.mp hpre]
  rw [List.length_take]
  omega

theorem exists_lexed (source : List Char) : ∃ lexemes, Lexed source lexemes := by
  induction hn : source.length using Nat.strong_induction_on generalizing source with
  | _ n ih =>
    cases source with
    | nil => exact ⟨[], .nil⟩
    | cons c source =>
      obtain ⟨t, rest, he, ht⟩ := exists_longest c source
      have hlt : rest.length < n := by
        have := congrArg List.length he
        have := List.length_pos_iff.mpr ht.1.ne_nil
        rw [List.length_append] at *
        omega
      obtain ⟨lexemes, h⟩ := ih _ hlt rest rfl
      exact ⟨t :: lexemes, he ▸ .cons ht h⟩

/-! ## The scan -/

/-- Between brackets the scan changes nothing, and it stays there. -/
theorem Inside.endAnchorsFrom_append {body : List Char} (h : Inside body) (rest : List Char) :
    endAnchorsFrom { inClass := true } (body ++ rest) =
      body ++ endAnchorsFrom { inClass := true } rest := by
  induction h with
  | nil => rfl
  | escape c _ ih =>
    rw [List.cons_append, List.cons_append, endAnchorsFrom, endAnchorsFrom]
    exact congrArg ('\\' :: c :: ·) ih
  | @plain c body hb hc _ ih =>
    have hnext : Scan.next { inClass := true } c = { inClass := true } := by
      simp [Scan.next, hb, hc]
    have hwrite : Scan.write { inClass := true } c = [c] := by
      simp [Scan.write, Scan.isAnchor]
    rw [List.cons_append, endAnchorsFrom, hnext, hwrite, ih]
    rfl

theorem Inside.endAnchors_class {body : List Char} (h : Inside body) (rest : List Char) :
    endAnchors ('[' :: (body ++ rest)) =
      '[' :: (body ++ endAnchorsFrom { inClass := true } rest) :=
  congrArg ('[' :: ·) (h.endAnchorsFrom_append rest)

theorem spellOut_class (body : List Char) : spellOut ('[' :: body) = '[' :: body :=
  if_neg (by simp)

/-- Behind a complete lexeme the scan goes on as if nothing had been before. -/
theorem Complete.endAnchors_append {t : List Char} (h : Complete t) (rest : List Char) :
    endAnchors (t ++ rest) = spellOut t ++ endAnchors rest := by
  cases h with
  | escape c => rfl
  | @closed body hbody =>
    have hclose : endAnchorsFrom { inClass := true } (']' :: rest) = ']' :: endAnchors rest := rfl
    rw [spellOut_class, List.cons_append, List.append_assoc, List.singleton_append, hbody.endAnchors_class,
      hclose, List.cons_append, List.append_assoc, List.singleton_append]
  | @single c hb hc =>
    have hnext : Scan.next {} c = {} := by
      simp [Scan.next, hb, hc]
    have hwrite : Scan.write {} c = spellOut [c] := by
      simp [Scan.write, Scan.isAnchor, spellOut]
    rw [List.singleton_append, endAnchors, endAnchorsFrom, hnext, hwrite]
    rfl

/-- A lexeme alone is spelled out as a lexeme, also if it is not complete. -/
theorem IsLexeme.endAnchors_eq {t : List Char} (h : IsLexeme t) : endAnchors t = spellOut t := by
  by_cases hc : Complete t
  · have halone := hc.endAnchors_append []
    rwa [List.append_nil, endAnchors.eq_def [], endAnchorsFrom, List.append_nil]
      at halone
  · cases h with
    | escape c => exact absurd (.escape c) hc
    | closed hbody => exact absurd (.closed hbody) hc
    | unclosed hbody =>
      have hscan := hbody.endAnchors_class []
      rwa [List.append_nil, endAnchorsFrom, List.append_nil, ← spellOut_class] at hscan
    | dangling hbody =>
      rw [spellOut_class]
      exact hbody.endAnchors_class ['\\']
    | @single c hopen =>
      by_cases hback : c = '\\'
      · rw [hback]
        rfl
      · exact absurd (.single hback hopen) hc

theorem endAnchors_of_lexed {source : List Char} {lexemes : List (List Char)}
    (h : Lexed source lexemes) : endAnchors source = (lexemes.map spellOut).flatten := by
  induction h with
  | nil => rfl
  | @cons t rest lexemes ht _ ih =>
    rw [List.map_cons, List.flatten_cons, ← ih]
    obtain ⟨hlexeme, hc | rfl⟩ := longest_iff.mp ht
    · exact hc.endAnchors_append rest
    · rw [List.append_nil, hlexeme.endAnchors_eq]
      exact (List.append_nil _).symm

/-! ## Texts that are spelled out, and texts in a row -/

theorem Lexed.flatten_eq {source : List Char} {lexemes : List (List Char)} (h : Lexed source lexemes) :
    lexemes.flatten = source := by
  induction h with
  | nil => rfl
  | cons _ _ ih => rw [List.flatten_cons, ih]

theorem Lexed.nil_iff {source : List Char} {lexemes : List (List Char)} (h : Lexed source lexemes) :
    source = [] ↔ lexemes = [] := by
  cases h with
  | nil => simp
  | cons ht _ => simp [ht.1.ne_nil]

theorem Complete.spelledOut {t : List Char} (h : Complete t) : Complete (spellOut t) := by
  rw [spellOut]
  split
  · exact .escape 'Z'
  · exact h

theorem IsLexeme.spelledOut {t : List Char} (h : IsLexeme t) : IsLexeme (spellOut t) := by
  rw [spellOut]
  split
  · exact .escape 'Z'
  · exact h

/-- What is spelled out splits into what the lexemes have become. -/
theorem Lexed.map_spellOut {source : List Char} {lexemes : List (List Char)} (h : Lexed source lexemes) :
    Lexed (lexemes.map spellOut).flatten (lexemes.map spellOut) := by
  induction h with
  | nil => exact .nil
  | @cons t rest lexemes ht h ih =>
    refine .cons (longest_iff.mpr ⟨ht.1.spelledOut, ?_⟩) ih
    obtain ⟨_, hc | hend⟩ := longest_iff.mp ht
    · exact Or.inl hc.spelledOut
    · rw [h.nil_iff.mp hend]
      exact Or.inr rfl

/-- A text that ends with a complete lexeme splits before any other text as it does alone. -/
theorem Lexed.append {source more : List Char} {lexemes others : List (List Char)}
    (h : Lexed source lexemes) (hmore : Lexed more others)
    (hlast : ∀ t, lexemes.getLast? = some t → Complete t) :
    Lexed (source ++ more) (lexemes ++ others) := by
  induction h with
  | nil => exact hmore
  | @cons t rest lexemes ht h ih =>
    have hc : Complete t := by
      obtain ⟨_, hc | hend⟩ := longest_iff.mp ht
      · exact hc
      · rw [h.nil_iff.mp hend] at hlast
        exact hlast t rfl
    have hrest : ∀ u, lexemes.getLast? = some u → Complete u := by
      intro u hu
      refine hlast u ?_
      rw [List.getLast?_cons, hu]
      rfl
    rw [List.append_assoc]
    exact .cons (longest_iff.mpr ⟨hc.isLexeme, Or.inl hc⟩) (ih hrest)

theorem spellOut_spellOut (t : List Char) : spellOut (spellOut t) = spellOut t := by
  by_cases h : t = ['$']
  · rw [h]
    rfl
  · rw [spellOut, spellOut, if_neg h, if_neg h]

/-- **Anchors are spelled out lexeme by lexeme.**  There is one way to split a text into lexemes that are as
long as they can be, and the text is spelled out by spelling out those that are a dollar sign.  So what is
spelled out stays as it is when that is done again; and two texts in a row are spelled out one by one where
the first does not end in a class or behind a backslash that escapes nothing. -/
theorem endAnchors_lexeme_by_lexeme (source : List Char) :
    ∃ lexemes, (∀ others, Lexed source others ↔ others = lexemes) ∧
      lexemes.flatten = source ∧
      endAnchors source = (lexemes.map spellOut).flatten ∧
      endAnchors (endAnchors source) = endAnchors source ∧
      ((∀ t, lexemes.getLast? = some t → Complete t) →
        ∀ more, endAnchors (source ++ more) = endAnchors source ++ endAnchors more) := by
  obtain ⟨lexemes, h⟩ := exists_lexed source
  refine ⟨lexemes, ?_, h.flatten_eq, endAnchors_of_lexed h, ?_, ?_⟩
  · intro others
    constructor
    · exact h.unique
    · rintro rfl
      exact h
  · rw [endAnchors_of_lexed h, endAnchors_of_lexed h.map_spellOut, List.map_map]
    exact congrArg List.flatten (List.map_congr_left fun t _ => spellOut_spellOut t)
  · intro hlast more
    obtain ⟨others, hmore⟩ := exists_lexed more
    rw [endAnchors_of_lexed (h.append hmore hlast), List.map_append, List.flatten_append,
      ← endAnchors_of_lexed h, ← endAnchors_of_lexed hmore]

/-- A class with an escaped bracket and a dollar sign in it, and an escaped dollar sign, before an anchor. -/
theorem endAnchors_lexeme_by_lexeme_sample :
    Lexed "[\\]$]\\$".toList ["[\\]$]".toList, "\\$".toList] ∧
      endAnchors ("[\\]$]\\$".toList ++ "$".toList) =
        endAnchors "[\\]$]\\$".toList ++ endAnchors "$".toList ∧
      endAnchors ("[\\]$]\\$".toList ++ "$".toList) = "[\\]$]\\$\\Z".toList := by
  have hclass : Complete "[\\]$]".toList :=
    .closed (.escape ']' (.plain (by decide) (by decide) .nil))
  have hescape : Complete "\\$".toList := .escape '$'
  have hlexed : Lexed "[\\]$]\\$".toList ["[\\]$]".toList, "\\$".toList] :=
    .cons (longest_iff.mpr ⟨hclass.isLexeme, Or.inl hclass⟩)
      (.cons (longest_iff.mpr ⟨hescape.isLexeme, Or.inl hescape⟩) .nil)
  obtain ⟨lexemes, hunique, _, _, _, happend⟩ := endAnchors_lexeme_by_lexeme "[\\]$]\\$".toList
  obtain rfl := (hunique _).mp hlexed
  refine ⟨hlexed, happend ?_ _, by decide⟩
  rintro t ⟨⟩
  exact hescape

end AttributeLint.Pattern
