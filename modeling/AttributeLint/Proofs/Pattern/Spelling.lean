import AttributeLint.Pattern.Anchors
import AttributeLint.Pattern.Token

/-!
# Spelled-out anchors, token by token

The anchors of a pattern are spelled out character by character, and a pattern is read token by token.
The two fit together: a backslash and what it takes along are passed over as one, so spelling out
changes single tokens and leaves their number as it is.

* `tokenize_endAnchors`: the tokens of a pattern with its anchors spelled out are those of the pattern,
  with `Token.spelled` in place of each.
* `Spelled`: tokens and their spelling, from wherever the scan may stand.  Token by token the two are the
  same or a dollar sign against its spelling (`Spelled.cases`, `Spelled.induct`).
* `Clear`: no dollar sign stands outside brackets, as the scan sees brackets.  Spelled-out patterns are
  clear (`clear_spelled`), and so is what is left of one behind any part of it (`Clear.behind`).  What is
  clear is left as it is (`clear_iff_append`).
-/

namespace AttributeLint.Pattern

/-! ## The scan over tokens -/

/-- Whether the scan stands between brackets behind a token. -/
def Token.bracketed (inClass : Bool) : Token → Bool
  | .plain c => if inClass then c != ']' else c == '['
  | _ => inClass

/-- What a token becomes. -/
def Token.spelled (inClass : Bool) (t : Token) : Token :=
  if !inClass && t = .plain '$' then .escaped 'Z' else t

/-- The tokens of a pattern, with its anchors spelled out. -/
def spelledFrom (inClass : Bool) : List Token → List Token
  | [] => []
  | t :: rest => t.spelled inClass :: spelledFrom (t.bracketed inClass) rest

theorem tokenize_plain {c : Char} (h : c ≠ '\\') (rest : List Char) :
    tokenize (c :: rest) = .plain c :: tokenize rest := by
  rw [tokenize]
  · exact fun hc _ => h hc
  · exact fun _ _ hc _ => h hc

/-- Spelling out goes token by token.  The induction is along the tokens, between two of which the scan
is never behind a backslash. -/
theorem tokenize_endAnchorsFrom (source : List Char) :
    ∀ inClass, tokenize (endAnchorsFrom { inClass } source) =
      spelledFrom inClass (tokenize source) := by
  induction source using tokenize.induct with
  | case1 => intro inClass; rfl
  | case2 => intro inClass; cases inClass <;> rfl
  | case3 c rest ih =>
    intro inClass
    have hnext : Scan.next (Scan.next { inClass } '\\') c = { inClass } := rfl
    have hwrite : Scan.write (Scan.next { inClass } '\\') c = [c] := rfl
    have hfirst : Scan.write { inClass } '\\' = ['\\'] := by
      simp [Scan.write, Scan.isAnchor]
    have hspelled : (Token.escaped c).spelled inClass = .escaped c := by
      simp [Token.spelled]
    rw [endAnchorsFrom, endAnchorsFrom, hnext, hwrite, hfirst, List.singleton_append,
      List.singleton_append, tokenize, tokenize, ih, spelledFrom, hspelled]
    rfl
  | case4 c rest hdangling hescaped ih =>
    intro inClass
    have hc : c ≠ '\\' := by
      intro h
      cases rest with
      | nil => exact hdangling h rfl
      | cons d more => exact hescaped d more h rfl
    have hnext : Scan.next { inClass } c = { inClass := (Token.plain c).bracketed inClass } := by
      cases inClass <;> by_cases hb : c = '[' <;> simp [Scan.next, Token.bracketed, hc, hb]
    rw [endAnchorsFrom, hnext, tokenize_plain hc, spelledFrom]
    cases ha : Scan.isAnchor { inClass } c with
    | true =>
      have hs : (Token.plain c).spelled inClass = .escaped 'Z' := by
        simpa [Scan.isAnchor, Token.spelled] using ha
      rw [Scan.write, if_pos ha, hs, List.cons_append, List.singleton_append, tokenize, ih]
    | false =>
      have hs : (Token.plain c).spelled inClass = .plain c := by
        simpa [Scan.isAnchor, Token.spelled] using ha
      rw [Scan.write, if_neg (by rw [ha]; simp), hs, List.singleton_append, tokenize_plain hc, ih]

theorem tokenize_endAnchors (source : List Char) :
    tokenize (endAnchors source) = spelledFrom false (tokenize source) :=
  tokenize_endAnchorsFrom source false

/-! ## Token against token -/

/-- A token and what may stand in its place: the same, or the spelling of a dollar sign. -/
def Respelled (t u : Token) : Prop :=
  u = t ∨ t = .plain '$' ∧ u = .escaped 'Z'

theorem respelled_spelled (inClass : Bool) (t : Token) : Respelled t (t.spelled inClass) := by
  rw [Token.spelled]
  split
  · next h => exact Or.inr ⟨(by simpa using h : _ ∧ t = .plain '$').2, rfl⟩
  · exact Or.inl rfl

/-- Tokens, and the same with the anchors spelled out from wherever the scan may stand. -/
def Spelled (ts us : List Token) : Prop :=
  ∃ inClass, us = spelledFrom inClass ts

theorem spelled_nil : Spelled [] [] :=
  ⟨false, rfl⟩

/-- Token by token, the two are the same or a dollar sign against its spelling. -/
theorem Spelled.cases {ts us : List Token} (h : Spelled ts us) :
    ts = [] ∧ us = [] ∨ ∃ t u ts' us', ts = t :: ts' ∧ us = u :: us' ∧ Respelled t u ∧
      Spelled ts' us' := by
  obtain ⟨inClass, rfl⟩ := h
  cases ts with
  | nil => exact Or.inl ⟨rfl, rfl⟩
  | cons t rest => exact Or.inr ⟨t, _, rest, _, rfl, rfl, respelled_spelled inClass t, _, rfl⟩

/-- Facts about tokens and their spelling are shown along both. -/
theorem Spelled.induct {motive : List Token → List Token → Prop} (nil : motive [] [])
    (cons : ∀ t u ts us, Respelled t u → Spelled ts us → motive ts us → motive (t :: ts) (u :: us))
    {ts us : List Token} (h : Spelled ts us) : motive ts us := by
  obtain ⟨inClass, rfl⟩ := h
  induction ts generalizing inClass with
  | nil => exact nil
  | cons t rest ih => exact cons t _ rest _ (respelled_spelled inClass t) ⟨_, rfl⟩ (ih _)

theorem Spelled.length_eq {ts us : List Token} (h : Spelled ts us) : ts.length = us.length := by
  refine Spelled.induct (motive := fun ts us => ts.length = us.length) rfl ?_ h
  intro t u ts us _ _ ih
  rw [List.length_cons, List.length_cons, ih]

/-! ## No dollar sign outside brackets -/

/-- No dollar sign stands where the scan is outside brackets. -/
def Clear (inClass : Bool) : List Token → Prop
  | [] => True
  | t :: rest => (t = .plain '$' → inClass = true) ∧ Clear (t.bracketed inClass) rest

theorem bracketed_spelled (inClass : Bool) (t : Token) :
    (t.spelled inClass).bracketed inClass = t.bracketed inClass := by
  rw [Token.spelled]
  split
  · next h =>
    obtain ⟨hb, rfl⟩ : inClass = false ∧ t = .plain '$' := by simpa using h
    rw [hb]
    rfl
  · rfl

theorem clear_spelled (ts : List Token) : ∀ inClass, Clear inClass (spelledFrom inClass ts) := by
  induction ts with
  | nil => exact fun _ => trivial
  | cons t rest ih =>
    intro inClass
    refine ⟨?_, by rw [bracketed_spelled]; exact ih _⟩
    rw [Token.spelled]
    split
    · nofun
    · next h =>
      rintro rfl
      simpa using h

theorem clear_tokenize (source : List Char) : Clear false (tokenize (endAnchors source)) := by
  rw [tokenize_endAnchors]
  exact clear_spelled _ false

theorem spelledFrom_eq_self_iff (ts : List Token) :
    ∀ inClass, spelledFrom inClass ts = ts ↔ Clear inClass ts := by
  induction ts with
  | nil => exact fun _ => ⟨fun _ => trivial, fun _ => rfl⟩
  | cons t rest ih =>
    intro inClass
    have ht : t.spelled inClass = t ↔ (t = .plain '$' → inClass = true) := by
      rw [Token.spelled]
      split
      · next h =>
        obtain ⟨rfl, rfl⟩ : inClass = false ∧ t = .plain '$' := by simpa using h
        simp
      · next h =>
        refine iff_of_true rfl ?_
        rintro rfl
        simpa using h
    rw [spelledFrom, List.cons.injEq, ht, ih, Clear]

theorem spelledFrom_append (ts us : List Token) : ∀ inClass, spelledFrom inClass (ts ++ us) =
    spelledFrom inClass ts ++ spelledFrom (ts.foldl Token.bracketed inClass) us := by
  induction ts with
  | nil => exact fun _ => rfl
  | cons t rest ih =>
    intro inClass
    rw [List.cons_append, spelledFrom, ih, spelledFrom, List.foldl_cons, List.cons_append]

/-- A text is clear exactly if it is left as it is where the anchors are spelled out. -/
theorem clear_iff_append {inClass : Bool} {ts us : List Token} :
    Clear inClass ts ↔ ∃ rest, spelledFrom inClass (ts ++ us) = ts ++ rest := by
  rw [← spelledFrom_eq_self_iff, spelledFrom_append]
  constructor
  · intro h
    rw [h]
    exact ⟨_, rfl⟩
  · rintro ⟨rest, h⟩
    have hlength : (spelledFrom inClass ts).length = ts.length :=
      (Spelled.length_eq ⟨inClass, rfl⟩).symm
    exact (List.append_inj h hlength).1

/-- What is left of a clear pattern is clear from where the scan then stands. -/
theorem Clear.behind {passed rest : List Token} :
    ∀ {inClass}, Clear inClass (passed ++ rest) →
      Clear (passed.foldl Token.bracketed inClass) rest := by
  induction passed with
  | nil => exact fun h => h
  | cons t passed ih => exact fun h => ih h.2

end AttributeLint.Pattern
