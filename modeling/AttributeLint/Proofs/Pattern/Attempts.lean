import AttributeLint.Pattern.Match

/-!
# Attempts that agree

Two attempts agree if both find a match or none does, and if they leave the same marks.  The place that
is noted in the registers has to be the same where a match is found; where none is found it may differ,
unless the agreement is an exact one.  Only cursors without a line break around them are looked at.

Agreement goes through all the ways in which matchers are put together: matchers of which the parts agree
agree themselves.  Where continuations are concerned, a matcher may be known to agree with another only
for those of some kind, `K` on the one side and `K'` on the other.

* `Registers.Agree`, `Attempt.Agree`, `Continuation.Agree`, `Matcher.Agree`: agreement.
* `Matcher.Agree.trans`: agreement is transitive.
* `Matcher.agree_either`, `agree_seen`, `agree_unseen`, `agree_once`, `agree_iterate`,
  `Single.agree_iterate`: one statement for each way to put matchers together.
-/

namespace AttributeLint.Pattern

/-! ## Cursors without line breaks -/

/-- No line break stands on either side of a cursor. -/
def Cursor.Unbroken (c : Cursor) : Prop :=
  '\n' ∉ c.before ∧ '\n' ∉ c.after

namespace Cursor

variable {c d : Cursor} {holds : Char → Bool}

theorem Unbroken.over (hc : c.Unbroken) (h : c.over? holds = some d) : d.Unbroken := by
  obtain ⟨index, before, after⟩ := c
  cases after with
  | nil => cases h
  | cons next after =>
    unfold over? at h
    dsimp only at h
    split at h
    · cases h
      obtain ⟨hb, ha⟩ := hc
      exact ⟨by simp_all, List.not_mem_of_not_mem_cons ha⟩
    · cases h

theorem Unbroken.back {n : Nat} : ∀ {c : Cursor}, c.Unbroken → c.back? n = some d → d.Unbroken := by
  induction n with
  | zero =>
    intro c hc h
    cases h
    exact hc
  | succ n ih =>
    rintro ⟨index, before, after⟩ ⟨hb, ha⟩ h
    cases before with
    | nil => cases h
    | cons b before =>
      exact ih (c := ⟨index - 1, before, b :: after⟩)
        ⟨List.not_mem_of_not_mem_cons hb, by simp_all⟩ h

theorem Unbroken.previous (hc : c.Unbroken) : c.previous.Unbroken := by
  unfold Cursor.previous
  cases h : c.back? 1 with
  | none => exact hc
  | some d => exact hc.back h

theorem Unbroken.count (limit : Nat) :
    ∀ {c : Cursor}, c.Unbroken → (c.count holds limit).2.Unbroken := by
  induction limit with
  | zero => exact fun hc => hc
  | succ limit ih =>
    intro c hc
    unfold Cursor.count
    split
    · next d hd => exact ih (hc.over hd)
    · exact hc

end Cursor

/-! ## Agreement -/

/-- Registers with the same marks, and if `exact` holds with the same place. -/
structure Registers.Agree (exact : Bool) (r r' : Registers) : Prop where
  marks : r.marks = r'.marks
  place : exact = true → r.place = r'.place
  left : r.place.Unbroken
  right : r'.place.Unbroken

/-- Attempts that end alike.  Where a match is found, the registers agree exactly. -/
structure Attempt.Agree (exact : Bool) (a a' : Attempt) : Prop where
  found : a.found = a'.found
  registers : Registers.Agree (exact || a.found) a.registers a'.registers

/-- Continuations that end alike from the same cursor. -/
def Continuation.Agree (exact : Bool) (k k' : Continuation) : Prop :=
  ∀ ⦃c r r'⦄, c.Unbroken → Registers.Agree exact r r' → Attempt.Agree exact (k c r) (k' c r')

/-- Matchers that end alike from the same cursor, with continuations of a kind that do. -/
def Matcher.Agree (exact : Bool) (K K' : Continuation → Prop) (m m' : Matcher) : Prop :=
  ∀ ⦃c r r' k k'⦄, c.Unbroken → Registers.Agree exact r r' → K k → K' k' →
    Continuation.Agree exact k k' → Attempt.Agree exact (m c r k) (m' c r' k')

/-- All continuations. -/
def Continuation.Any (_ : Continuation) : Prop :=
  True

variable {exact : Bool}

namespace Registers

variable {r r' r'' : Registers}

theorem Agree.symm (h : Agree exact r r') : Agree exact r' r :=
  ⟨h.marks.symm, fun he => (h.place he).symm, h.right, h.left⟩

theorem Agree.trans (h : Agree exact r r') (h' : Agree exact r' r'') : Agree exact r r'' :=
  ⟨h.marks.trans h'.marks, fun he => (h.place he).trans (h'.place he), h.left, h'.right⟩

theorem Agree.weaken {weaker : Bool} (h : Agree exact r r') (hw : weaker = true → exact = true) :
    Agree weaker r r' :=
  ⟨h.marks, fun he => h.place (hw he), h.left, h.right⟩

/-- Where a place is noted, registers agree exactly. -/
theorem Agree.note (h : Agree exact r r') {c : Cursor} (hc : c.Unbroken) :
    Agree true (r.note c) (r'.note c) :=
  ⟨h.marks, fun _ => rfl, hc, hc⟩

theorem Agree.noted (h : Agree exact r r') {c : Cursor} (hc : c.Unbroken) :
    Agree exact (r.note c) (r'.note c) :=
  (h.note hc).weaken fun _ => rfl

theorem Agree.mark (h : Agree exact r r') (i : Nat) (c : Cursor) :
    Agree exact (r.mark i c) (r'.mark i c) :=
  ⟨by simp only [Registers.mark, h.marks], h.place, h.left, h.right⟩

theorem Agree.restore (h : Agree exact r r') (inLoop : Bool) (marks : List (Option Nat)) :
    Agree exact (r.restore inLoop marks) (r'.restore inLoop marks) :=
  ⟨by simp only [Registers.restore, h.marks], h.place, h.left, h.right⟩

theorem Agree.captured (h : Agree exact r r') (group : Nat) :
    r.captured? group = r'.captured? group := by
  simp only [captured?, h.marks]

end Registers

namespace Attempt

variable {a a' a'' : Attempt}

theorem Agree.symm (h : Agree exact a a') : Agree exact a' a :=
  ⟨h.found.symm, h.found ▸ h.registers.symm⟩

theorem Agree.trans (h : Agree exact a a') (h' : Agree exact a' a'') : Agree exact a a'' :=
  ⟨h.found.trans h'.found, h.registers.trans (h.found ▸ h'.registers)⟩

theorem Agree.loose (h : Agree exact a a') : Registers.Agree exact a.registers a'.registers :=
  h.registers.weaken fun he => by rw [he, Bool.true_or]

theorem Agree.tight (h : Agree exact a a') (ha : a.found = true) :
    Registers.Agree true a.registers a'.registers :=
  h.registers.weaken fun _ => by rw [ha, Bool.or_true]

theorem agree_fail {r r' : Registers} (h : Registers.Agree exact r r') :
    Agree exact (fail r) (fail r') :=
  ⟨rfl, h.weaken fun he => by simpa [fail] using he⟩

theorem agree_orElse {next next' : Registers → Attempt} (h : Agree exact a a')
    (hnext : ∀ {r r'}, Registers.Agree exact r r' → Agree exact (next r) (next' r')) :
    Agree exact (a.orElse next) (a'.orElse next') := by
  unfold orElse
  rw [← h.found]
  split
  · exact h
  · exact hnext h.loose

theorem agree_orNote (h : Agree exact a a') {c : Cursor} (hc : c.Unbroken) :
    Agree exact (a.orNote c) (a'.orNote c) :=
  agree_orElse h fun hr => agree_fail (hr.noted hc)

end Attempt

namespace Continuation

variable {k k' : Continuation}

theorem Agree.symm (h : Agree exact k k') : Agree exact k' k :=
  fun _ _ _ hc hr => (h hc hr.symm).symm

/-- A continuation that agrees with some other agrees with itself. -/
theorem Agree.right (h : Agree exact k k') : Agree exact k' k' :=
  fun _ _ _ hc hr => (h hc (hr.trans hr.symm)).symm.trans (h hc hr)

theorem agree_stop : Agree exact stop stop :=
  fun _ _ _ hc hr => ⟨rfl, (hr.note hc).weaken fun _ => rfl⟩

end Continuation

/-! ## Single characters -/

namespace Single

open Attempt

variable {s : Single} {b : Bounds} {c : Cursor} {r r' : Registers} {k k' : Continuation}

/-- Counting does not depend on the registers, in which it notes a place. -/
theorem count_eq (s : Single) (limit : Nat) (hc : c.Unbroken) :
    ∃ n last place, last.Unbroken ∧ place.Unbroken ∧
      ∀ r, s.count limit c r = (n, last, r.note place) := by
  have hlast : (c.count s.holds limit).2.Unbroken := hc.count limit
  refine ⟨_, _, if s.moves then (c.count s.holds limit).2 else c, hlast, ?_, fun _ => rfl⟩
  split
  · exact hlast
  · exact hc

theorem agree_goOn (after : Lead) (hk : k.Agree exact k') :
    (goOn after k).Agree exact (goOn after k') := by
  intro c r r' hc hr
  unfold goOn
  split
  · split
    · exact hk hc (hr.noted hc)
    · exact agree_fail hr
  · exact hk hc (hr.noted hc)

theorem agree_giveBack (b : Bounds) (marks : List (Option Nat)) (hk : k.Agree exact k') (n : Nat) :
    ∀ {c r r'}, c.Unbroken → Registers.Agree exact r r' →
      Attempt.Agree exact (giveBack b marks k n c r) (giveBack b marks k' n c r') := by
  induction n with
  | zero =>
    intro c r r' hc hr
    exact agree_orElse (agree_goOn b.after hk hc hr) fun h => agree_fail (h.restore _ _)
  | succ n ih =>
    intro c r r' hc hr
    exact agree_orElse (agree_goOn b.after hk hc hr) fun h => ih hc.previous (h.restore _ _)

theorem agree_take (s : Single) (b : Bounds) (marks : List (Option Nat)) (hk : k.Agree exact k')
    (n : Nat) : ∀ {c r r'}, c.Unbroken → Registers.Agree exact r r' →
      Attempt.Agree exact (take s b marks k n c r) (take s b marks k' n c r') := by
  induction n with
  | zero =>
    intro c r r' hc hr
    refine agree_orElse (hk hc (hr.noted hc)) fun h => ?_
    obtain ⟨n, last, place, -, hplace, heq⟩ := s.count_eq 1 hc
    rw [heq, heq]
    exact agree_fail ((h.restore b.inLoop marks).noted hplace)
  | succ n ih =>
    intro c r r' hc hr
    refine agree_orElse (hk hc (hr.noted hc)) fun h => ?_
    obtain ⟨n, last, place, hlast, hplace, heq⟩ := s.count_eq 1 hc
    rw [heq, heq]
    cases n with
    | zero => exact agree_fail ((h.restore b.inLoop marks).noted hplace)
    | succ n => exact ih hlast ((h.restore b.inLoop marks).noted hplace)

/-- Repetitions of the same single character agree. -/
theorem agree_iterate (s : Single) (b : Bounds) (greed : Greed) (K K' : Continuation → Prop) :
    Matcher.Agree exact K K' (s.iterate b greed) (s.iterate b greed) := by
  intro c r r' k k' hc hr _ _ hk
  cases greed with
  | greedy =>
    unfold iterate greedy
    dsimp only
    split
    · exact agree_fail hr
    obtain ⟨n, last, place, hlast, hplace, heq⟩ := s.count_eq (b.limit c) hc
    rw [heq, heq]
    dsimp only
    split
    · exact agree_fail (hr.noted hplace)
    · rw [(hr.noted hplace).marks]
      exact agree_giveBack b _ hk _ hlast (hr.noted hplace)
  | lazy =>
    unfold iterate lazy
    dsimp only
    split
    · exact agree_fail hr
    obtain ⟨n, first, place, hfirst, hplace, heq⟩ := s.count_eq b.least hc
    rw [heq, heq]
    dsimp only
    split
    · exact agree_fail (hr.noted hplace)
    · rw [(hr.noted hplace).marks]
      exact agree_take s b _ hk _ hfirst (hr.noted hplace)
  | possessive =>
    unfold iterate possessive
    dsimp only
    split
    · exact agree_fail hr
    obtain ⟨n, last, place, hlast, hplace, heq⟩ := s.count_eq (b.limit c) hc
    rw [heq, heq]
    dsimp only
    split
    · exact agree_fail (hr.noted hplace)
    · exact hk hlast (hr.noted hplace)

end Single

/-! ## Matchers put together -/

namespace Matcher

open Attempt
open Continuation (Any)

variable {K K' : Continuation → Prop} {m m' n n' : Matcher}

theorem Agree.symm (h : Agree exact K K' m m') : Agree exact K' K m' m :=
  fun _ _ _ _ _ hc hr hk hk' hkk => (h hc hr.symm hk' hk hkk.symm).symm

/-- Agreement is transitive. -/
theorem Agree.trans {m'' : Matcher} (h : Agree exact K K' m m') (h' : Agree exact K' K' m' m'') :
    Agree exact K K' m m'' :=
  fun _ _ _ _ _ hc hr hk hk' hkk =>
    (h hc hr hk hk' hkk).trans (h' hc (hr.symm.trans hr) hk' hk' hkk.right)

theorem Agree.restrict {L L' : Continuation → Prop} (h : Agree exact K K' m m')
    (hL : ∀ k, L k → K k) (hL' : ∀ k, L' k → K' k) : Agree exact L L' m m' :=
  fun _ _ _ _ _ hc hr hk hk' hkk => h hc hr (hL _ hk) (hL' _ hk') hkk

theorem Agree.of_any (h : Agree exact Any Any m m') : Agree exact K K' m m' :=
  h.restrict (fun _ _ => trivial) fun _ _ => trivial

/-- A matcher with a continuation behind it is a continuation. -/
theorem Agree.continue {k k' : Continuation} (h : Agree exact K K' m m') (hk : K k) (hk' : K' k')
    (hkk : k.Agree exact k') :
    Continuation.Agree exact (fun c r => m c r k) (fun c r => m' c r k') :=
  fun _ _ _ hc hr => h hc hr hk hk' hkk

theorem agree_one (holds : Char → Bool) : Agree exact K K' (one holds) (one holds) := by
  intro c r r' k k' hc hr _ _ hk
  unfold one
  split
  · next d hd => exact hk (hc.over hd) hr
  · exact agree_fail hr

theorem agree_exactly (same : Char → Char → Bool) (text : List Char) :
    Agree exact Any Any (exactly same text) (exactly same text) := by
  induction text with
  | nil => exact fun _ _ _ _ _ hc hr _ _ hk => hk hc hr
  | cons a rest ih =>
    intro c r r' k k' hc hr hk hk' hkk
    have hone : Agree exact Any Any (one (same a)) (one (same a)) := agree_one (same a)
    exact hone hc hr trivial trivial (ih.continue hk hk' hkk)

theorem agree_either (inLoop : Bool) (lead : Lead) (hm : Agree exact K K' m m')
    (hn : Agree exact K K' n n') :
    Agree exact K K' (either inLoop lead m n) (either inLoop lead m' n') := by
  intro c r r' k k' hc hr hk hk' hkk
  unfold either
  split
  · refine agree_orElse (hm hc (hr.noted hc) hk hk' hkk) fun h => ?_
    rw [hr.marks]
    exact hn hc (h.restore _ _) hk hk' hkk
  · exact hn hc hr hk hk' hkk

/-! ### Bodies on their own -/

section Stop

variable (hm : Agree exact K K' m m') (hK : K .stop) (hK' : K' .stop)
include hm hK hK'

theorem agree_stopped {c : Cursor} {r r' : Registers} (hc : c.Unbroken)
    (hr : Registers.Agree exact r r') : Attempt.Agree exact (m c r .stop) (m' c r' .stop) :=
  hm hc hr hK hK' Continuation.agree_stop

theorem agree_seen (width : Nat) : Agree exact Any Any (seen m width) (seen m' width) := by
  intro c r r' k k' hc hr _ _ hk
  unfold seen
  split
  · exact agree_fail hr
  · next place hplace =>
    have hinner := agree_stopped hm hK hK' (hc.back hplace) (hr.noted (hc.back hplace))
    dsimp only
    rw [← hinner.found]
    split
    · exact hk hc hinner.loose
    · exact hinner

theorem agree_unseen (inLoop : Bool) (width : Nat) :
    Agree exact Any Any (unseen inLoop m width) (unseen inLoop m' width) := by
  intro c r r' k k' hc hr _ _ hk
  unfold unseen
  split
  · exact hk hc hr
  · next place hplace =>
    have hinner := agree_stopped hm hK hK' (hc.back hplace) (hr.noted (hc.back hplace))
    dsimp only
    rw [← hinner.found]
    split
    · exact agree_fail hinner.loose
    · rw [hr.marks]
      exact hk hc (hinner.loose.restore _ _)

theorem agree_once : Agree exact Any Any (once m) (once m') := by
  intro c r r' k k' hc hr _ _ hk
  have hinner := agree_stopped hm hK hK' hc (hr.noted hc)
  unfold once
  dsimp only
  rw [← hinner.found]
  split
  · next hfound =>
    have htight := hinner.tight hfound
    rw [htight.place rfl]
    exact hk htight.right hinner.loose
  · exact agree_fail (hinner.loose.noted hc)

end Stop

/-! ### Turns -/

theorem agree_leave : Agree exact Any Any leave leave :=
  fun _ _ _ _ _ hc hr _ _ hk => agree_orNote (hk hc (hr.noted hc)) hc

section Turns

variable (hm : Agree exact Any Any m m')
include hm

theorem agree_required (hn : Agree exact Any Any n n') (turns : Nat) :
    Agree exact Any Any (required m n turns) (required m' n' turns) := by
  induction turns with
  | zero => exact hn
  | succ turns ih =>
    intro c r r' k k' hc hr hk hk' hkk
    exact agree_orNote (hm hc (hr.noted hc) trivial trivial (ih.continue hk hk' hkk)) hc

theorem agree_greedy (turns : Nat) :
    ∀ last, Agree exact Any Any (greedy m turns last) (greedy m' turns last) := by
  induction turns with
  | zero => exact fun _ => agree_leave
  | succ turns ih =>
    intro last c r r' k k' hc hr hk hk' hkk
    unfold greedy
    split
    · exact agree_leave hc hr hk hk' hkk
    · refine agree_orElse
        (hm hc (hr.noted hc) trivial trivial ((ih _).continue hk hk' hkk)) fun h => ?_
      rw [hr.marks]
      exact agree_leave hc (h.restore _ _) hk hk' hkk

theorem agree_lazy (inLoop : Bool) (turns : Nat) :
    ∀ last, Agree exact Any Any (lazy inLoop m turns last) (lazy inLoop m' turns last) := by
  induction turns with
  | zero =>
    intro last c r r' k k' hc hr _ _ hk
    unfold lazy
    refine agree_orElse (hk hc (hr.noted hc)) fun h => agree_fail ?_
    rw [hr.marks]
    exact (h.restore _ _).noted hc
  | succ turns ih =>
    intro last c r r' k k' hc hr hk hk' hkk
    unfold lazy
    refine agree_orElse (hkk hc (hr.noted hc)) fun h => ?_
    rw [hr.marks]
    have hagain := (h.restore inLoop r'.marks).noted hc
    split
    · exact agree_fail hagain
    · exact agree_orNote (hm hc hagain trivial trivial ((ih _).continue hk hk' hkk)) hc

end Turns

/-! ### Possessive turns

A turn in vain leaves a place behind that the repetition goes on from.  So turns have to agree exactly,
and all of the repetition does then. -/

section Possessive

variable (hm : Agree true Any Any m m')
include hm

theorem agree_requiredOnce (turns : Nat) : ∀ {r r' : Registers}, Registers.Agree true r r' →
    Attempt.Agree true (requiredOnce m turns r) (requiredOnce m' turns r') := by
  induction turns with
  | zero => exact fun hr => ⟨rfl, hr⟩
  | succ turns ih =>
    intro r r' hr
    have hturn := agree_stopped hm trivial trivial hr.left hr
    unfold requiredOnce
    dsimp only
    rw [← hr.place rfl, ← hturn.found]
    split
    · exact ih hturn.loose
    · exact hturn

theorem agree_possessive (turns : Nat) : ∀ last {r r' : Registers}, Registers.Agree true r r' →
    Registers.Agree true (possessive m turns last r) (possessive m' turns last r') := by
  induction turns with
  | zero => exact fun _ _ _ hr => hr
  | succ turns ih =>
    intro last r r' hr
    have hturn := agree_stopped hm trivial trivial hr.left hr
    unfold possessive
    dsimp only
    rw [← hr.place rfl]
    split
    · exact hr
    · rw [← hturn.found]
      split
      · exact ih _ hturn.loose
      · rw [hr.marks]
        exact hturn.loose.restore _ _

end Possessive

/-- Repetitions agree if their bodies do, exactly so if the repetition is possessive. -/
theorem agree_iterate (b : Bounds) (greed : Greed)
    (hm : Agree (exact || decide (greed = .possessive)) Any Any m m') :
    Agree exact Any Any (iterate b m greed) (iterate b m' greed) := by
  cases greed with
  | greedy =>
    have hm : Agree exact Any Any m m' := by simpa using hm
    exact fun c _ _ _ _ hc => agree_required hm (agree_greedy hm (b.optional c) none) b.least hc
  | lazy =>
    have hm : Agree exact Any Any m m' := by simpa using hm
    exact fun c _ _ _ _ hc =>
      agree_required hm (agree_lazy hm b.inLoop (b.optional c) none) b.least hc
  | possessive =>
    have hm : Agree true Any Any m m' := by simpa using hm
    intro c r r' k k' hc hr _ _ hk
    have hturns := agree_requiredOnce hm b.least (hr.note hc)
    unfold iterate
    dsimp only
    rw [← hturns.found]
    split
    · have hall := agree_possessive hm (b.optional c) none hturns.loose
      rw [← hall.place rfl]
      exact hk hall.left (hall.weaken fun _ => rfl)
    · exact agree_fail (hturns.loose.noted hc |>.weaken fun _ => rfl)

end Matcher

end AttributeLint.Pattern
