import AttributeLint.Pattern.Search
import AttributeLint.Proofs.Pattern.Ends

/-!
# Expressions that a search cannot tell apart

Peers have the same width and begin alike, as far as a search looks at how an expression begins, and the
matcher ends alike on both of them.  The latter is asked for where the expressions are sound: references
are to groups that are closed before, and no possessive repetition mixes the two kinds of ends.

* `Regex.Separated`, `Regex.Sound`, `Regex.Peers`: the definitions.
* `Regex.Veiled`: expressions of whose beginning a search sees nothing, so that they are peers if the
  matcher cannot tell them apart.
* `peers_cat`, `peers_alt`, `peers_capture`, `peers_flagged`, `peers_iterate`, `peers_atomic`,
  `peers_look`, `peers_whether`: what is put together from peers are peers.
* `Peers.found_eq`: **peers are found in the same texts without line breaks.**
-/

namespace AttributeLint.Pattern

open Continuation (Any)

namespace Regex

/-- The body of a possessive repetition. -/
def possessed? : Feature → Option Regex
  | .possessive body => some body
  | _ => none

/-- No possessive repetition mixes the two kinds of ends. -/
def Separated (r : Regex) : Prop :=
  ∀ body ∈ r.features.filterMap possessed?, ¬ body.Mixed

instance (r : Regex) : Decidable r.Mixed :=
  inferInstanceAs (Decidable (_ ∧ _))

instance (r : Regex) : Decidable r.Separated :=
  inferInstanceAs (Decidable (∀ body ∈ _, _))

/-- References are to groups that are closed before, and no possessive repetition mixes the two kinds of
ends. -/
structure Sound (r : Regex) : Prop where
  orderly : r.Orderly
  separated : r.Separated

/-- Expressions that have the same width, begin alike and are matched alike. -/
structure Peers (r r' : Regex) : Prop where
  width : r.width = r'.width
  lead : ∀ f after, r.lead f after = r'.lead f after
  literal : ∀ f, r.literalStart f = r'.literalStart f
  start : ∀ f, r.classStart? f = r'.classStart? f
  codes : ∀ f, r.firstCodes? f = r'.firstCodes? f
  first : ∀ n, r.firstItem? = some (code false n) ↔ r'.firstItem? = some (code false n)
  single : ∀ f, r.single? f = r'.single? f
  empty : r = empty ↔ r' = empty
  agree : r.Sound → r'.Sound → ∀ e,
    Matcher.Agree false (Framed e r) (Framed e r') (r.run e) (r'.run e)

/-- An expression of whose beginning a search sees nothing. -/
structure Veiled (r : Regex) : Prop where
  lead : ∀ f after, r.lead f after = .other
  literal : ∀ f, r.literalStart f = ([], false)
  start : ∀ f, r.classStart? f = none
  codes : ∀ f, r.firstCodes? f = none
  first : ∀ n, r.firstItem? ≠ some (code false n)
  single : ∀ f, r.single? f = none
  ne_empty : r ≠ empty

/-! ## Parts of sound expressions -/

variable {r r' s s' : Regex}

theorem Separated.not_mixed {body : Regex} (h : r.Separated) (hbody : .possessive body ∈ r.features) :
    ¬ body.Mixed :=
  h body (List.mem_filterMap.mpr ⟨_, hbody, rfl⟩)

theorem Sound.part (h : r.Sound) (hs : s.Orderly) (hfeatures : ∀ x ∈ s.features, x ∈ r.features) :
    s.Sound := by
  refine ⟨hs, fun body hbody => ?_⟩
  obtain ⟨x, hx, he⟩ := List.mem_filterMap.mp hbody
  exact h.separated body (List.mem_filterMap.mpr ⟨x, hfeatures x hx, he⟩)

theorem Sound.cat (h : (cat r s).Sound) : r.Sound ∧ s.Sound :=
  ⟨h.part h.orderly.1 fun _ => List.mem_append_left _,
    h.part h.orderly.2.1 fun _ => List.mem_append_right _⟩

theorem Sound.alt (h : (alt r s).Sound) : r.Sound ∧ s.Sound :=
  ⟨h.part h.orderly.1 fun _ => List.mem_append_left _,
    h.part h.orderly.2 fun _ => List.mem_append_right _⟩

theorem Sound.whether {group : Nat} (h : (whether group r s).Sound) : r.Sound ∧ s.Sound :=
  ⟨h.part h.orderly.1 fun _ => List.mem_append_left _,
    h.part h.orderly.2 fun _ => List.mem_append_right _⟩

theorem Framed.part {e e' : Setting} {k : Continuation} (h : Framed e r k)
    (hloop : e'.inLoop = e.inLoop) (hfeatures : ∀ x ∈ s.features, x ∈ r.features) : Framed e' s k :=
  h.imp (fun he => hloop.trans he) fun hk g w hg => hk g w (hfeatures _ hg)

theorem framed_stop (e : Setting) (r : Regex) : Framed e r .stop :=
  Or.inr fun g _ _ => Continuation.keeps_stop g

/-- What the second part keeps is kept behind the first. -/
theorem Framed.behind {e : Setting} {k : Continuation} (hk : Framed e (cat r s) k)
    (h : (cat r s).Orderly) (after : Lead) :
    Framed { e with after } r fun c regs => s.run e c regs k := by
  refine hk.imp id fun hkeeps g w hg => ?_
  refine run_keeps (one_le_of_orderly h.1 (Or.inr ⟨w, hg⟩)) s (fun other ho => ⟨?_, ?_⟩) e
    (hkeeps g w (List.mem_append_left _ hg))
  · exact one_le_of_orderly h.2.1 (Or.inl ho)
  · rintro rfl
    exact h.2.2 other w hg ho

/-- The mark of a group is none of those that are referred to inside it. -/
theorem Framed.inside {e : Setting} {k : Continuation} {group : Nat}
    (hk : Framed e (capture group r) k) (h : (capture group r).Orderly) :
    Framed e.closed r fun c regs => k c (regs.mark (2 * group - 1) c) := by
  refine hk.imp id fun hkeeps g w hg c regs => ?_
  have hpos : 1 ≤ g := one_le_of_orderly h.2.1 (Or.inr ⟨w, hg⟩)
  have hne : group ≠ g := by
    rintro rfl
    exact h.2.2 w hg
  exact (Kept.mark hpos h.1 hne (Or.inr rfl) regs c).trans
    (hkeeps g w (List.mem_cons_of_mem _ hg) c _)

/-! ## What is put together from peers -/

theorem peers_of_eq (h : r = r') : Peers r r' := by
  subst h
  refine ⟨rfl, fun _ _ => rfl, fun _ => rfl, fun _ => rfl, fun _ => rfl, fun _ => Iff.rfl,
    fun _ => rfl, Iff.rfl, fun _ _ e => ?_⟩
  exact (agree_of_strict_eq rfl false e).of_any

theorem peers_of_veiled (hr : r.Veiled) (hr' : r'.Veiled) (hwidth : r.width = r'.width)
    (hagree : r.Sound → r'.Sound → ∀ e,
      Matcher.Agree false (Framed e r) (Framed e r') (r.run e) (r'.run e)) : Peers r r' where
  width := hwidth
  lead f after := by rw [hr.lead, hr'.lead]
  literal f := by rw [hr.literal, hr'.literal]
  start f := by rw [hr.start, hr'.start]
  codes f := by rw [hr.codes, hr'.codes]
  first n := iff_of_false (hr.first n) (hr'.first n)
  single f := by rw [hr.single, hr'.single]
  empty := iff_of_false hr.ne_empty hr'.ne_empty
  agree := hagree

/-- What repeats, looks around or asks for a group veils what it begins with. -/
def isVeil : Regex → Bool
  | iterate _ _ _ _ => true
  | atomic _ => true
  | look _ _ _ => true
  | whether _ _ _ => true
  | _ => false

theorem veiled_of_isVeil (h : r.isVeil = true) : r.Veiled := by
  cases r with
  | iterate | atomic | look | whether =>
    exact ⟨fun _ _ => rfl, fun _ => rfl, fun _ => rfl, fun _ => rfl, nofun, fun _ => rfl, nofun⟩
  | _ => cases h

theorem peers_cat (hr : Peers r r') (hs : Peers s s') : Peers (cat r s) (cat r' s') := by
  constructor
  case width => rw [width, width, hr.width, hs.width]
  case lead => exact fun f after => by rw [lead, lead, hr.lead, hs.lead]
  case literal => exact fun f => by rw [literalStart, literalStart, hr.literal, hs.literal]
  case start => exact fun f => hr.start f
  case codes => exact fun f => rfl
  case first => exact hr.first
  case single => exact fun f => rfl
  case empty => exact ⟨by rintro ⟨⟩, by rintro ⟨⟩⟩
  case agree =>
    intro h h' e c regs regs' k k' hc hregs hk hk' hkk
    unfold run
    rw [hs.lead]
    refine hr.agree h.cat.1 h'.cat.1 _ hc hregs (hk.behind h.orderly _) (hk'.behind h'.orderly _) ?_
    exact (hs.agree h.cat.2 h'.cat.2 e).continue (hk.part rfl fun _ => List.mem_append_right _)
      (hk'.part rfl fun _ => List.mem_append_right _) hkk

theorem width_alt (r s : Regex) :
    (alt r s).width = if s = never then r.width else r.width.either s.width := by
  cases s <;> rfl

theorem peers_alt (hr : Peers r r') (hs : Peers s s') (hnever : s = never ↔ s' = never) :
    Peers (alt r s) (alt r' s') := by
  have hcodes : ∀ f, (alt r s).firstCodes? f = (alt r' s').firstCodes? f := by
    intro f
    have hnone : ∀ {r s : Regex}, (∀ n, r.firstItem? ≠ some (code false n)) →
        (alt r s).firstCodes? f = none := by
      intro r s h
      rw [firstCodes?]
      split
      · next n hn => exact absurd hn (h n)
      · rfl
    by_cases h : ∃ n, r.firstItem? = some (code false n)
    · obtain ⟨n, hn⟩ := h
      rw [firstCodes?, firstCodes?, hn, (hr.first n).mp hn, hs.codes]
    · rw [hnone fun n hn => h ⟨n, hn⟩, hnone fun n hn => h ⟨n, (hr.first n).mpr hn⟩]
  constructor
  case width => simp only [width_alt, hr.width, hs.width, hnever]
  case lead => exact fun f after => rfl
  case literal => exact fun f => rfl
  case start => exact fun f => by rw [classStart?, classStart?, hcodes]
  case codes => exact hcodes
  case first => exact fun n => ⟨nofun, nofun⟩
  case single => exact fun f => rfl
  case empty => exact ⟨nofun, nofun⟩
  case agree =>
    intro h h' e
    unfold run
    rw [hr.lead]
    refine Matcher.agree_either _ _ ?_ ?_
    · refine (hr.agree h.alt.1 h'.alt.1 e.closed).restrict ?_ ?_
      · exact fun k hk => hk.part rfl fun _ => List.mem_append_left _
      · exact fun k hk => hk.part rfl fun _ => List.mem_append_left _
    · refine (hs.agree h.alt.2 h'.alt.2 e).restrict ?_ ?_
      · exact fun k hk => hk.part rfl fun _ => List.mem_append_right _
      · exact fun k hk => hk.part rfl fun _ => List.mem_append_right _

theorem peers_capture (hr : Peers r r') (group : Nat) : Peers (capture group r) (capture group r') := by
  constructor
  case width => exact hr.width
  case lead => exact fun f after => rfl
  case literal => exact hr.literal
  case start => exact hr.start
  case codes => exact fun f => rfl
  case first => exact fun n => ⟨nofun, nofun⟩
  case single => exact fun f => rfl
  case empty => exact ⟨nofun, nofun⟩
  case agree =>
    intro h h' e c regs regs' k k' hc hregs hk hk' hkk
    have hsound := h.part h.orderly.2.1 fun _ => List.mem_cons_of_mem _
    have hsound' := h'.part h'.orderly.2.1 fun _ => List.mem_cons_of_mem _
    exact hr.agree hsound hsound' _ hc (hregs.mark _ c) (hk.inside h.orderly) (hk'.inside h'.orderly)
      fun d _ _ hd hq => hkk hd (hq.mark _ d)

theorem peers_flagged (hr : Peers r r') (on off : Flags) :
    Peers (flagged on off r) (flagged on off r') := by
  constructor
  case width => exact hr.width
  case lead => exact fun f after => hr.lead _ after
  case literal => exact fun f => hr.literal _
  case start => exact fun f => hr.start _
  case codes => exact fun f => rfl
  case first => exact fun n => ⟨nofun, nofun⟩
  case single => exact fun f => hr.single _
  case empty => exact ⟨nofun, nofun⟩
  case agree =>
    intro h h' e
    have hsound := h.part (s := r) h.orderly fun _ hx => hx
    have hsound' := h'.part (s := r') h'.orderly fun _ hx => hx
    exact hr.agree hsound hsound' { e with flags := e.flags.switch on off }

theorem peers_atomic (hr : Peers r r') : Peers (atomic r) (atomic r') := by
  refine peers_of_veiled (veiled_of_isVeil rfl) (veiled_of_isVeil rfl) hr.width ?_
  intro h h' e
  have hsound := h.part (s := r) h.orderly fun _ hx => hx
  have hsound' := h'.part (s := r') h'.orderly fun _ hx => hx
  exact (Matcher.agree_once (hr.agree hsound hsound' e.closed) (framed_stop _ _)
    (framed_stop _ _)).of_any

theorem peers_look (hr : Peers r r') (direction : Direction) (negated : Bool) :
    Peers (look direction negated r) (look direction negated r') := by
  refine peers_of_veiled (veiled_of_isVeil rfl) (veiled_of_isVeil rfl) rfl ?_
  intro h h' e
  have hsound := h.part (s := r) h.orderly fun _ hx => hx
  have hsound' := h'.part (s := r') h'.orderly fun _ hx => hx
  have hbody := hr.agree hsound hsound' e.closed
  unfold run
  split
  · exact (Matcher.agree_unseen hbody (framed_stop _ _) (framed_stop _ _) _ _).of_any
  · exact (Matcher.agree_seen hbody (framed_stop _ _) (framed_stop _ _) _).of_any

theorem peers_whether (hr : Peers r r') (hs : Peers s s') (group : Nat) :
    Peers (whether group r s) (whether group r' s') := by
  have hwidth : (whether group r s).width = (whether group r' s').width := by
    rw [width, width, hr.width, hs.width]
  refine peers_of_veiled (veiled_of_isVeil rfl) (veiled_of_isVeil rfl) hwidth ?_
  intro h h' e c regs regs' k k' hc hregs hk hk' hkk
  unfold run
  rw [hregs.captured]
  simp only [hs.empty]
  split
  · refine hr.agree h.whether.1 h'.whether.1 _ hc hregs ?_ ?_ hkk
    · exact hk.part (by split <;> rfl) fun _ => List.mem_append_left _
    · exact hk'.part (by split <;> rfl) fun _ => List.mem_append_left _
  · refine hs.agree h.whether.2 h'.whether.2 e hc hregs ?_ ?_ hkk
    · exact hk.part rfl fun _ => List.mem_append_right _
    · exact hk'.part rfl fun _ => List.mem_append_right _

/-- Repetitions of peers are peers.  For a possessive repetition the bodies have to agree exactly, which
they do if they differ in the kind of ends only. -/
theorem peers_iterate (hr : Peers r r') (heven : Even r r') (greed : Greed) (least : Nat)
    (most : Option Nat) : Peers (iterate greed least most r) (iterate greed least most r') := by
  have hwidth : (iterate greed least most r).width = (iterate greed least most r').width := by
    rw [width, width, hr.width]
  refine peers_of_veiled (veiled_of_isVeil rfl) (veiled_of_isVeil rfl) hwidth ?_
  intro h h' e
  have hsound := h.part (s := r) h.orderly fun _ hx => mem_features_iterate.mpr (Or.inr hx)
  have hsound' := h'.part (s := r') h'.orderly fun _ hx => mem_features_iterate.mpr (Or.inr hx)
  unfold run
  rw [hr.single]
  dsimp only
  split
  · exact Single.agree_iterate _ _ greed _ _
  · refine (Matcher.agree_iterate _ greed ?_).of_any
    by_cases hgreed : greed = .possessive
    · subst hgreed
      refine agree_of_strict_eq (heven ?_ ?_) _ _
      · exact h.separated.not_mixed (mem_features_iterate.mpr (Or.inl ⟨rfl, rfl⟩))
      · exact h'.separated.not_mixed (mem_features_iterate.mpr (Or.inl ⟨rfl, rfl⟩))
    · -- in a loop the marks are restored, so that nothing has to be kept
      have hloop : (e.inLoop || greed != .possessive) = true := by
        rw [bne_iff_ne.mpr hgreed, Bool.or_true]
      rw [decide_eq_false hgreed, Bool.or_false]
      exact (hr.agree hsound hsound' _).restrict (fun _ _ => Or.inl hloop) fun _ _ => Or.inl hloop

theorem Peers.symm (h : Peers r r') : Peers r' r :=
  ⟨h.width.symm, fun f after => (h.lead f after).symm, fun f => (h.literal f).symm,
    fun f => (h.start f).symm, fun f => (h.codes f).symm, fun n => (h.first n).symm,
    fun f => (h.single f).symm, h.empty.symm, fun hr hr' e => (h.agree hr' hr e).symm⟩

/-! ## Searching for peers -/

theorem unbroken_of_mem_onward {after : List Char} :
    ∀ {index : Nat} {before : List Char}, '\n' ∉ before → '\n' ∉ after →
      ∀ c ∈ Cursor.onward index before after, c.Unbroken := by
  induction after with
  | nil =>
    intro index before hbefore hafter
    exact List.forall_mem_singleton.mpr ⟨hbefore, hafter⟩
  | cons a after ih =>
    intro index before hbefore hafter
    obtain ⟨ha, hrest⟩ := List.ne_and_not_mem_of_not_mem_cons hafter
    exact List.forall_mem_cons.mpr
      ⟨⟨hbefore, hafter⟩, ih (List.not_mem_cons_of_ne_of_not_mem ha hbefore) hrest⟩

theorem mem_all_of_mem_starts {f : Flags} {text : List Char} {c : Cursor}
    (h : c ∈ r.starts f text) : c ∈ Cursor.all text := by
  unfold starts at h
  dsimp only at h
  split at h
  · exact absurd h List.not_mem_nil
  · split at h
    · exact h
    · split at h
      · exact (List.mem_filter.mp h).1
      · exact (List.mem_filter.mp h).1
      · exact List.mem_of_mem_take h

theorem Peers.starts_eq (h : Peers r r') (f : Flags) (text : List Char) :
    r.starts f text = r'.starts f text := by
  simp only [starts, h.width, h.literal, h.start]

theorem Peers.holdsAt_eq (h : Peers r r') (hr : r.Sound) (hr' : r'.Sound) (f : Flags) {c : Cursor}
    (hc : c.Unbroken) : r.holdsAt f c = r'.holdsAt f c :=
  (h.agree hr hr' { flags := f } hc ⟨rfl, fun _ => rfl, hc, hc⟩ (framed_stop _ _) (framed_stop _ _)
    Continuation.agree_stop).found

/-- **Peers are found in the same texts without line breaks.** -/
theorem Peers.found_eq (h : Peers r r') (hr : r.Sound) (hr' : r'.Sound) (f : Flags)
    {text : List Char} (htext : '\n' ∉ text) : r.found f text = r'.found f text := by
  have hstart : ∀ c ∈ r'.starts f text, r.holdsAt f c = r'.holdsAt f c := by
    intro c hmem
    refine h.holdsAt_eq hr hr' f ?_
    exact unbroken_of_mem_onward List.not_mem_nil htext c (mem_all_of_mem_starts hmem)
  rw [found, found, h.starts_eq]
  refine Bool.eq_iff_iff.mpr ?_
  simp only [List.any_eq_true]
  exact exists_congr fun c => and_congr_right fun hmem => by rw [hstart c hmem]

end Regex

end AttributeLint.Pattern
