import AttributeLint.Pattern.Match
import AttributeLint.Proofs.Pattern.Choices

/-!
# What matching leaves alone

The marks of a group are set where the group is entered and left, and nowhere else.  Whatever else is
matched, and whether or not it leads to a match, leaves them as they are as long as they are valid.

* `Kept`: the marks of a group are the same as before where they were valid.
* `Continuation.Keeps`, `Matcher.Keeps`: marks are kept whatever the cursor and the registers are.
* `Regex.run_keeps`: **an expression keeps the marks of the groups that it has not inside it.**
* `Registers.captured?_restore`: marks that are kept, and then restored, tell the same of the group.
-/

namespace AttributeLint.Pattern

/-! ## Marks that are kept -/

/-- The marks of a group that are valid in one list are the same in another. -/
def Kept (group : Nat) (before after : List (Option Nat)) : Prop :=
  ∀ i, i = 2 * group - 2 ∨ i = 2 * group - 1 → i < before.length → after[i]? = before[i]?

namespace Kept

variable {group : Nat} {l m n : List (Option Nat)}

theorem refl (group : Nat) (l : List (Option Nat)) : Kept group l l :=
  fun _ _ _ => rfl

theorem lt_length (h : Kept group l m) {i : Nat} (hi : i = 2 * group - 2 ∨ i = 2 * group - 1)
    (hl : i < l.length) : i < m.length := by
  have hsome : m[i]? = some (l.get ⟨i, hl⟩) := (h i hi hl).trans (List.getElem?_eq_getElem hl)
  exact (List.getElem?_eq_some_iff.mp hsome).1

theorem trans (h : Kept group l m) (h' : Kept group m n) : Kept group l n :=
  fun i hi hl => (h' i hi (h.lt_length hi hl)).trans (h i hi hl)

/-- A mark of another group. -/
theorem mark {other i : Nat} (hg : 1 ≤ group) (ho : 1 ≤ other) (hne : other ≠ group)
    (hi : i = 2 * other - 2 ∨ i = 2 * other - 1) (r : Registers) (c : Cursor) :
    Kept group r.marks (r.mark i c).marks := by
  intro j hj hlt
  have hij : i ≠ j := by omega
  unfold Registers.mark
  dsimp only
  split
  · exact List.getElem?_set_ne hij
  · rw [List.append_assoc, List.getElem?_append_left hlt]

/-- Marks that are restored after they were kept. -/
theorem restore {r : Registers} (h : Kept group l m) (h' : Kept group m r.marks) (inLoop : Bool) :
    Kept group l (r.restore inLoop m).marks := by
  unfold Registers.restore
  cases inLoop with
  | true => exact h
  | false =>
    intro i hi hl
    have hm := h.lt_length hi hl
    dsimp only
    rw [if_neg (by simp), List.getElem?_take_of_lt hm]
    exact (h.trans h') i hi hl

end Kept

/-- Whatever is done from a cursor keeps the marks of a group. -/
def Continuation.Keeps (group : Nat) (k : Continuation) : Prop :=
  ∀ c r, Kept group r.marks (k c r).registers.marks

/-- A matcher keeps the marks of a group if what comes behind it does. -/
def Matcher.Keeps (group : Nat) (m : Matcher) : Prop :=
  ∀ ⦃k⦄, k.Keeps group → Continuation.Keeps group fun c r => m c r k

variable {group : Nat}

theorem Continuation.keeps_stop (group : Nat) : Continuation.Keeps group stop :=
  fun _ r => Kept.refl group r.marks

theorem Attempt.kept_orElse {a : Attempt} {next : Registers → Attempt} {l : List (Option Nat)}
    (ha : Kept group l a.registers.marks)
    (hnext : Kept group l (next a.registers).registers.marks) :
    Kept group l (a.orElse next).registers.marks := by
  unfold orElse
  split
  · exact ha
  · exact hnext

namespace Single

variable {k : Continuation} (hk : k.Keeps group)
include hk

theorem keeps_goOn (after : Lead) : (goOn after k).Keeps group := by
  intro c r
  unfold goOn
  split
  · split
    · exact hk c (r.note c)
    · exact .refl _ _
  · exact hk c (r.note c)

theorem kept_giveBack (b : Bounds) {l marks : List (Option Nat)} (hl : Kept group l marks) (n : Nat) :
    ∀ c (r : Registers), Kept group marks r.marks →
      Kept group l (giveBack b marks k n c r).registers.marks := by
  induction n with
  | zero =>
    intro c r hr
    have hgo := hr.trans (keeps_goOn hk b.after c r)
    exact Attempt.kept_orElse (hl.trans hgo) (hl.restore hgo b.inLoop)
  | succ n ih =>
    intro c r hr
    have hgo := hr.trans (keeps_goOn hk b.after c r)
    exact Attempt.kept_orElse (hl.trans hgo)
      (ih _ _ ((Kept.refl _ _).restore hgo b.inLoop))

theorem kept_take (s : Single) (b : Bounds) {l marks : List (Option Nat)} (hl : Kept group l marks)
    (n : Nat) : ∀ c (r : Registers), Kept group marks r.marks →
      Kept group l (take s b marks k n c r).registers.marks := by
  induction n with
  | zero =>
    intro c r hr
    have hgo := hr.trans (hk c (r.note c))
    exact Attempt.kept_orElse (hl.trans hgo) (hl.restore hgo b.inLoop)
  | succ n ih =>
    intro c r hr
    have hgo := hr.trans (hk c (r.note c))
    refine Attempt.kept_orElse (hl.trans hgo) ?_
    unfold Single.count
    rcases c.count s.holds 1 with ⟨_ | m, next⟩
    · exact hl.restore hgo b.inLoop
    · exact ih _ _ ((Kept.refl _ _).restore hgo b.inLoop)

omit hk in
theorem keeps_iterate (s : Single) (b : Bounds) (greed : Greed) :
    Matcher.Keeps group (s.iterate b greed) := by
  intro k hk c r
  cases greed with
  | greedy =>
    unfold iterate greedy
    dsimp only
    split
    · exact .refl _ _
    · split
      · exact .refl _ _
      · exact kept_giveBack hk b (.refl _ _) _ _ _ (.refl _ _)
  | lazy =>
    unfold iterate lazy
    dsimp only
    split
    · exact .refl _ _
    · split
      · exact .refl _ _
      · exact kept_take hk s b (.refl _ _) _ _ _ (.refl _ _)
  | possessive =>
    unfold iterate possessive
    dsimp only
    split
    · exact .refl _ _
    · split
      · exact .refl _ _
      · exact hk (s.count (b.limit c) c r).2.1 (s.count (b.limit c) c r).2.2

end Single

/-! ## Matchers put together -/

namespace Matcher

variable {m n : Matcher}

theorem keeps_one (holds : Char → Bool) : Keeps group (one holds) := by
  intro k hk c r
  dsimp only [one]
  split
  · exact hk _ r
  · exact .refl _ _

theorem keeps_exactly (same : Char → Char → Bool) (text : List Char) :
    Keeps group (exactly same text) := by
  induction text with
  | nil => exact fun k hk => hk
  | cons a rest ih => exact fun k hk => keeps_one (same a) (ih hk)

theorem keeps_either (inLoop : Bool) (lead : Lead) (hm : Keeps group m) (hn : Keeps group n) :
    Keeps group (either inLoop lead m n) := by
  intro k hk c r
  dsimp only [either]
  split
  · have hfirst := hm hk c (r.note c)
    exact Attempt.kept_orElse hfirst (((Kept.refl _ _).restore hfirst inLoop).trans (hn hk _ _))
  · exact hn hk c r

theorem keeps_stopped (hm : Keeps group m) (c : Cursor) (r : Registers) :
    Kept group r.marks (m c r .stop).registers.marks :=
  hm (Continuation.keeps_stop group) c r

theorem keeps_seen (hm : Keeps group m) (width : Nat) : Keeps group (seen m width) := by
  intro k hk c r
  dsimp only [seen]
  split
  · exact .refl _ _
  · next place _ =>
    have hinner := keeps_stopped hm place (r.note place)
    split
    · exact hinner.trans (hk _ _)
    · exact hinner

theorem keeps_unseen (hm : Keeps group m) (inLoop : Bool) (width : Nat) :
    Keeps group (unseen inLoop m width) := by
  intro k hk c r
  dsimp only [unseen]
  split
  · exact hk c r
  · next place _ =>
    have hinner := keeps_stopped hm place (r.note place)
    split
    · exact hinner
    · exact ((Kept.refl _ _).restore hinner inLoop).trans (hk _ _)

theorem keeps_once (hm : Keeps group m) : Keeps group (once m) := by
  intro k hk c r
  have hinner := keeps_stopped hm c (r.note c)
  dsimp only [once]
  split
  · exact hinner.trans (hk _ _)
  · exact hinner

theorem keeps_leave : Keeps group leave :=
  fun _ hk c r => Attempt.kept_orElse (hk c (r.note c)) (hk c (r.note c))

theorem keeps_required (hm : Keeps group m) (hn : Keeps group n) (turns : Nat) :
    Keeps group (required m n turns) := by
  induction turns with
  | zero => exact hn
  | succ turns ih =>
    exact fun _ hk c r => Attempt.kept_orElse (hm (ih hk) c (r.note c)) (hm (ih hk) c (r.note c))

theorem keeps_greedy (hm : Keeps group m) (turns : Nat) :
    ∀ last, Keeps group (greedy m turns last) := by
  induction turns with
  | zero => exact fun _ => keeps_leave
  | succ turns ih =>
    intro last k hk c r
    dsimp only [greedy]
    split
    · exact keeps_leave hk c r
    · have hturn := hm (ih (some c.index) hk) c (r.note c)
      exact Attempt.kept_orElse hturn
        (((Kept.refl _ _).restore hturn true).trans (keeps_leave hk _ _))

theorem keeps_lazy (hm : Keeps group m) (inLoop : Bool) (turns : Nat) :
    ∀ last, Keeps group (lazy inLoop m turns last) := by
  induction turns with
  | zero =>
    intro last k hk c r
    have hgo := hk c (r.note c)
    exact Attempt.kept_orElse hgo ((Kept.refl _ _).restore hgo inLoop)
  | succ turns ih =>
    intro last k hk c r
    have hgo := hk c (r.note c)
    have hagain := (Kept.refl group r.marks).restore hgo inLoop
    dsimp only [lazy]
    refine Attempt.kept_orElse hgo ?_
    split
    · exact hagain
    · have hturn := hagain.trans (hm (ih (some c.index) hk) c
        (((k c (r.note c)).registers.restore inLoop r.marks).note c))
      exact Attempt.kept_orElse hturn hturn

theorem kept_requiredOnce (hm : Keeps group m) (turns : Nat) :
    ∀ r : Registers, Kept group r.marks (requiredOnce m turns r).registers.marks := by
  induction turns with
  | zero => exact fun r => .refl _ _
  | succ turns ih =>
    intro r
    have hturn := keeps_stopped hm r.place r
    dsimp only [requiredOnce]
    split
    · exact hturn.trans (ih _)
    · exact hturn

theorem kept_possessive (hm : Keeps group m) (turns : Nat) :
    ∀ last (r : Registers), Kept group r.marks (possessive m turns last r).marks := by
  induction turns with
  | zero => exact fun _ r => .refl _ _
  | succ turns ih =>
    intro last r
    have hturn := keeps_stopped hm r.place r
    dsimp only [possessive]
    split
    · exact .refl _ _
    · split
      · exact hturn.trans (ih _ _)
      · exact (Kept.refl _ _).restore hturn true

theorem keeps_iterate (hm : Keeps group m) (b : Bounds) (greed : Greed) :
    Keeps group (iterate b m greed) := by
  cases greed with
  | greedy => exact fun k hk c => keeps_required hm (keeps_greedy hm _ _) b.least hk c
  | lazy => exact fun k hk c => keeps_required hm (keeps_lazy hm _ _ _) b.least hk c
  | possessive =>
    intro k hk c r
    have hturns := kept_requiredOnce hm b.least (r.note c)
    dsimp only [iterate]
    split
    · exact hturns.trans ((kept_possessive hm _ none _).trans (hk _ _))
    · exact hturns

end Matcher

/-! ## Expressions -/

/-- **An expression keeps the marks of the groups that it has not inside it.** -/
theorem Regex.run_keeps {group : Nat} (hg : 1 ≤ group) (r : Regex) :
    (∀ other, .group other ∈ r.features → 1 ≤ other ∧ other ≠ group) →
      ∀ e, Matcher.Keeps group (r.run e) := by
  induction r with
  | empty => exact fun _ _ _ hk => hk
  | never => exact fun _ _ _ _ _ r => .refl _ _
  | code negated n => exact fun _ _ => Matcher.keeps_one _
  | any => exact fun _ _ => Matcher.keeps_one _
  | oneOf negated items => exact fun _ _ => Matcher.keeps_one _
  | anchor a =>
    intro _ e k hk c r
    dsimp only [run]
    split
    · exact hk c r
    · exact .refl _ _
  | cat r s ihr ihs =>
    intro h e k hk
    have hr := ihr fun other ho => h other (List.mem_append_left _ ho)
    have hs := ihs fun other ho => h other (List.mem_append_right _ ho)
    exact hr _ (hs e hk)
  | alt r s ihr ihs =>
    intro h e
    have hr := ihr fun other ho => h other (List.mem_append_left _ ho)
    have hs := ihs fun other ho => h other (List.mem_append_right _ ho)
    exact Matcher.keeps_either _ _ (hr _) (hs _)
  | capture other r ih =>
    intro h e k hk c regs
    obtain ⟨hother, hne⟩ := h other List.mem_cons_self
    have hr := ih fun other ho => h other (List.mem_cons_of_mem _ ho)
    have hleave : Continuation.Keeps group fun c regs => k c (regs.mark (2 * other - 1) c) :=
      fun c regs => (Kept.mark hg hother hne (Or.inr rfl) regs c).trans (hk _ _)
    exact (Kept.mark hg hother hne (Or.inl rfl) regs c).trans (hr _ hleave c _)
  | flagged on off r ih => exact fun h e => ih h _
  | iterate greed least most r ih =>
    intro h e
    have hr := ih fun other ho => h other (mem_features_iterate.mpr (Or.inr ho))
    unfold run
    dsimp only
    split
    · exact Single.keeps_iterate _ _ greed
    · exact Matcher.keeps_iterate (hr _) _ greed
  | atomic r ih => exact fun h e => Matcher.keeps_once (ih h _)
  | look direction negated r ih =>
    intro h e
    unfold run
    split
    · exact Matcher.keeps_unseen (ih h _) _ _
    · exact Matcher.keeps_seen (ih h _) _
  | backref other width =>
    intro _ e k hk c r
    dsimp only [run]
    split
    · exact Matcher.keeps_exactly _ _ hk c r
    · exact .refl _ _
  | whether other yes no ihyes ihno =>
    intro h e k hk c r
    have hyes := ihyes fun other ho => h other (List.mem_append_left _ ho)
    have hno := ihno fun other ho => h other (List.mem_append_right _ ho)
    dsimp only [run]
    split
    · exact hyes _ hk c r
    · exact hno e hk c r

/-- Marks that were kept, and then are restored, tell the same of the group. -/
theorem Registers.captured?_restore {group : Nat} {r failed : Registers} {inLoop : Bool}
    (h : inLoop = true ∨ Kept group r.marks failed.marks) :
    (failed.restore inLoop r.marks).captured? group = r.captured? group := by
  have hmarks : ∀ i, i = 2 * group - 2 ∨ i = 2 * group - 1 →
      (failed.restore inLoop r.marks).marks[i]? = r.marks[i]? := by
    intro i hi
    unfold restore
    dsimp only
    split
    · rfl
    · next hloop =>
      have hkept := h.resolve_left hloop
      by_cases hlt : i < r.marks.length
      · rw [List.getElem?_take_of_lt hlt]
        exact hkept i hi hlt
      · rw [List.getElem?_take_eq_none (Nat.not_lt.mp hlt),
          List.getElem?_eq_none (Nat.not_lt.mp hlt)]
  rw [captured?, captured?, hmarks _ (Or.inl rfl), hmarks _ (Or.inr rfl)]

end AttributeLint.Pattern
