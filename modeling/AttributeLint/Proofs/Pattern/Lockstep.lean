import AttributeLint.Proofs.Pattern.Alongside
import AttributeLint.Proofs.Pattern.Faults
import AttributeLint.Proofs.Pattern.Twins

/-!
# Two spellings in lockstep

The reader takes the same steps on a pattern and on its spelling, and it fails on both or on neither;
only at a class it fails on the spelling alone, if the spelling of the class is not the class itself.  On
both it goes through the same groups and flags, and what it has read so far is put together alike.

* `State.Along`: the two states of reading.
* `State.class?`, `State.Plain`: the text of the class that the input begins with, and that it is left as
  it is where anchors are spelled out.
* `Reader.step_together`, `Reader.run_together`: a step keeps the states along, and so does a whole run.
* `parse_together`: **a pattern and its spelling are read into expressions that are put together alike**,
  the spelling exactly if the pattern can be read and its classes are plain.
-/

namespace AttributeLint.Pattern

open Regex (Alike AlikeItem SameFaults)

/-- Whether an item can be repeated. -/
def Regex.repeatable : Regex → Bool
  | anchor _ => false
  | iterate _ _ _ _ => false
  | _ => true

/-- Expressions that are put together alike and refused alike. -/
structure Regex.Along (r r' : Regex) : Prop where
  alike : Alike r r'
  faults : SameFaults r r'

/-- Items that are put together alike, refused alike and repeated alike. -/
structure Regex.AlongItem (r r' : Regex) : Prop where
  alike : AlikeItem r r'
  faults : SameFaults r r'
  repeatable : r.repeatable = r'.repeatable

/-- Groups that are the same but for the places where conditions ask for them. -/
structure Groups.Same (g h : Groups) : Prop where
  names : g.names = h.names
  widths : g.widths = h.widths
  mark : g.mark = h.mark
  asked : g.asked.map Prod.fst = h.asked.map Prod.fst

/-- Levels that hold what is put together alike. -/
structure Level.Along (l m : Level) : Prop where
  opening : l.opening = m.opening
  verbose : l.verbose = m.verbose
  done : List.Forall₂ Regex.Along l.done m.done
  items : List.Forall₂ Regex.AlongItem l.items m.items

/-- Of a level and those around it only the outermost is the whole pattern. -/
def Level.Inner (l : Level) : List Level → Prop
  | [] => True
  | around :: outer => l.opening ≠ .whole ∧ around.Inner outer

/-- States of reading a pattern and its spelling. -/
structure State.Along (s t : State) : Prop where
  input : s.input.Along t.input
  flags : s.flags = t.flags
  groups : s.groups.Same t.groups
  level : s.level.Along t.level
  outer : List.Forall₂ Level.Along s.outer t.outer
  inner : s.level.Inner s.outer

/-! ## Items, groups and levels -/

namespace Regex

variable {r r' : Regex}

theorem alongItem_plain {p : Regex} (hp : p.isPlain = true) : AlongItem p p :=
  ⟨alikeItem_plain hp, fun _ => Iff.rfl, rfl⟩

theorem alongItem_ends : AlongItem (anchor .lineEnd) (anchor .textEnd) :=
  ⟨alikeItem_ends, fun _ => Iff.rfl, rfl⟩

theorem AlongItem.iterate (h : AlongItem r r') (greed : Greed) (least : Nat) (most : Option Nat) :
    AlongItem (.iterate greed least most r.bare) (.iterate greed least most r'.bare) :=
  ⟨alikeItem_iterate h.alike greed least most, sameFaults_iterate h.faults greed least most, rfl⟩

end Regex

namespace Groups.Same

variable {g h : Groups}

theorem next_eq (hg : g.Same h) : g.next = h.next := by
  rw [next, next, hg.widths]

theorem closed?_eq (hg : g.Same h) (n : Nat) : g.closed? n = h.closed? n :=
  Groups.closed?_eq hg.widths n

theorem openNext (hg : g.Same h) (name : Option String) : (g.openNext name).Same (h.openNext name) := by
  refine ⟨?_, ?_, hg.mark, hg.asked⟩
  · unfold Groups.openNext
    rw [hg.names, hg.next_eq]
  · exact congrArg (· ++ [none]) hg.widths

theorem close (hg : g.Same h) (group : Nat) (width : Width) :
    (g.close group width).Same (h.close group width) :=
  ⟨hg.names, congrArg (List.set · (group - 1) (some width)) hg.widths, hg.mark, hg.asked⟩

theorem any_asked (g : Groups) (p : Nat → Bool) :
    g.asked.any (fun a => p a.1) = (g.asked.map Prod.fst).any p := by
  rw [List.any_map]
  rfl

theorem ask (hg : g.Same h) (group p q : Nat) : (g.ask group p).Same (h.ask group q) := by
  unfold Groups.ask
  rw [any_asked g (· == group), any_asked h (· == group), hg.asked]
  split
  · exact hg
  · refine ⟨hg.names, hg.widths, hg.mark, ?_⟩
    rw [List.map_append, List.map_append, hg.asked]
    rfl

end Groups.Same

namespace Level

variable {l m : Level}

theorem Inner.of_opening {l l' : Level} {outer : List Level} (h : l.Inner outer)
    (ho : l'.opening = l.opening) : l'.Inner outer := by
  cases outer with
  | nil => trivial
  | cons around outer => exact ⟨ho ▸ h.1, h.2⟩

namespace Along

theorem push (h : l.Along m) {r r' : Regex} (hr : Regex.AlongItem r r') :
    (l.push r).Along (m.push r') :=
  ⟨h.opening, h.verbose, h.done, .cons hr h.items⟩

theorem current (h : l.Along m) : Regex.Along l.current m.current := by
  have hitems := List.rel_reverse h.items
  exact ⟨Regex.alike_sequence (hitems.imp fun _ _ hr => hr.alike),
    Regex.sameFaults_sequence (hitems.imp fun _ _ hr => hr.faults)⟩

theorem body (h : l.Along m) : Regex.Along l.body m.body := by
  have hall := List.rel_reverse (.cons h.current h.done)
  exact ⟨Regex.alike_choices (hall.imp fun _ _ hr => hr.alike),
    Regex.sameFaults_choices (hall.imp fun _ _ hr => hr.faults)⟩

theorem split (h : l.Along m) : l.split.Along m.split :=
  ⟨h.opening, h.verbose, .cons h.current h.done, .nil⟩

end Along

end Level

namespace State.Along

variable {s t : State} {i j : Input}

/-- Going on with another innermost level of the same kind. -/
theorem withLevel (h : s.Along t) (hi : i.Along j) {l m : Level} (hl : l.Along m)
    (ho : l.opening = s.level.opening) :
    State.Along { s with level := l, input := i } { t with level := m, input := j } :=
  ⟨hi, h.flags, h.groups, hl, h.outer, h.inner.of_opening ho⟩

theorem push (h : s.Along t) (hi : i.Along j) {r r' : Regex} (hr : Regex.AlongItem r r') :
    (s.push r i).Along (t.push r' j) :=
  h.withLevel hi (h.level.push hr) rfl

theorem goTo (h : s.Along t) (hi : i.Along j) : (s.goTo i).Along (t.goTo j) :=
  h.withLevel hi h.level rfl

theorem enter (h : s.Along t) (hi : i.Along j) {opening : Opening} (ho : opening ≠ .whole) (p q : Nat)
    {v w : Bool} (hv : v = w) {g g' : Groups} (hg : g.Same g') :
    State.Along { s.enter opening p v i with groups := g } { t.enter opening q w j with groups := g' } :=
  ⟨hi, h.flags, hg, ⟨rfl, hv, .nil, .nil⟩, .cons h.level h.outer, ho, h.inner⟩

end State.Along

namespace Reader

variable {s t : State} {g g' : Groups} {i j : Input}

/-! ## References and escapes -/

theorem checkMark_together (hg : g.Same g') (group p q : Nat) :
    Together (fun _ _ => True) (g.checkMark group p) (g'.checkMark group q) := by
  unfold Groups.checkMark
  rw [hg.mark, hg.closed?_eq]
  split
  · exact together_ok trivial
  · split
    · exact together_error
    · split
      · exact together_error
      · exact together_ok trivial

theorem reference_together (hg : g.Same g') (group p q : Nat) (i j : Input) :
    Together Eq (reference g group p i) (reference g' group q j) := by
  unfold reference
  rw [hg.closed?_eq]
  split
  · exact together_error
  · exact together_bind (checkMark_together hg group _ _) fun _ _ _ => together_pure rfl

theorem refer_together (hg : g.Same g') (h : i.Along j) (group p q : Nat) :
    Together (Paired Eq) (refer g group p i) (refer g' group q j) := by
  unfold refer
  rw [hg.next_eq]
  split
  · refine together_bind (reference_together hg group p q i j) ?_
    rintro r _ rfl
    exact together_pure ⟨rfl, h⟩
  · exact together_error

theorem digits_together (hg : g.Same g') (h : i.Along j) (c : Char) :
    Together (Paired Eq) (digits g c i) (digits g' c j) := by
  unfold digits
  refine together_bind (Input.takeWhile_together (by decide) 1 h) ?_
  rintro ⟨second, k⟩ ⟨_, l⟩ ⟨rfl, hkl, -⟩
  dsimp only
  split
  · refine together_bind (Input.takeWhile_together (by decide) 1 hkl) ?_
    rintro ⟨third, m⟩ ⟨_, n⟩ ⟨rfl, hmn, -⟩
    dsimp only
    split
    · split
      · exact together_error
      · exact together_pure ⟨rfl, hmn⟩
    · exact refer_together hg hkl _ _ _
  · exact refer_together hg hkl _ _ _

theorem escape_together (hg : g.Same g') (h : i.Along j) (c : Char) :
    Together (Paired Eq) (escape g c i) (escape g' c j) := by
  have hcode : ∀ x y : Nat × Input, Passed i j x y →
      Together (Paired Eq) (pure (Regex.code false x.1, x.2) : Except Failure (Regex × Input))
        (pure (Regex.code false y.1, y.2)) :=
    fun x y hxy => together_pure ⟨congrArg (Regex.code false) hxy.1, hxy.2.1⟩
  have hnumber := Escape.number?_together h c
  unfold escape
  generalize Escape.number? c i = x at hnumber
  generalize Escape.number? c j = y at hnumber
  cases Escape.anchor? c with
  | some a => exact together_pure ⟨rfl, h⟩
  | none =>
    cases Escape.category? c with
    | some atom => exact together_pure ⟨rfl, h⟩
    | none =>
      cases Escape.control? c with
      | some n => exact together_pure ⟨rfl, h⟩
      | none =>
        cases hnumber with
        | some hread => exact together_bind hread hcode
        | none =>
          dsimp only
          split
          · exact together_bind (Escape.octal_together h c) hcode
          · split
            · exact digits_together hg h c
            · exact together_bind (Escape.itself_together h c) hcode

/-! ## Groups -/

theorem isEmpty_eq {α β : Type} {R : α → β → Prop} {l : List α} {m : List β}
    (h : List.Forall₂ R l m) : l.isEmpty = m.isEmpty := by
  cases h <;> rfl

theorem enterCapture_together (hs : s.Along t) (h : i.Along j) {name name' : Option (String × Nat)}
    (hname : Option.Rel (fun x y => x.1 = y.1) name name') (p q : Nat) :
    Together State.Along (enterCapture s name p i) (enterCapture t name' q j) := by
  have hgo : ∀ name, State.Along
      { s.enter (.capture s.groups.next) p s.level.verbose i with
        groups := s.groups.openNext name }
      { t.enter (.capture t.groups.next) q t.level.verbose j with
        groups := t.groups.openNext name } := by
    intro name
    rw [← hs.groups.next_eq]
    exact hs.enter h (by rintro ⟨⟩) p q hs.level.verbose (hs.groups.openNext name)
  unfold enterCapture
  cases hname with
  | none => exact together_pure (hgo none)
  | @some x y hxy =>
    obtain ⟨name, place⟩ := x
    obtain ⟨_, place'⟩ := y
    obtain rfl : name = _ := hxy
    dsimp only
    rw [hs.groups.names]
    split
    · exact together_error
    · exact together_pure (hgo (some name))

theorem namedReference_together (hs : s.Along t) (h : i.Along j) :
    Together State.Along (namedReference s i) (namedReference t j) := by
  unfold namedReference
  refine together_bind (groupName_together h (by decide)) ?_
  rintro ⟨name, p, i⟩ ⟨_, q, j⟩ ⟨rfl, h⟩
  dsimp only
  rw [hs.groups.names]
  split
  · exact together_error
  · next group _ =>
    refine together_bind ((reference_together hs.groups group p q i j).and
      (reference_gives _ _ _ _) (reference_gives _ _ _ _)) ?_
    rintro _ _ ⟨rfl, ⟨w, rfl, -⟩, -⟩
    exact together_pure (hs.push h (Regex.alongItem_plain rfl))

theorem named_together (hs : s.Along t) (h : i.Along j) (p q : Nat) :
    Together State.Along (named s p i) (named t q j) := by
  unfold named
  refine together_bind (Input.accept_together h (by decide)) ?_
  rintro _ _ (h' | _)
  · refine together_bind (groupName_together h'.1 (by decide)) ?_
    rintro ⟨name, m, i⟩ ⟨_, n, j⟩ ⟨rfl, h⟩
    have hname : Option.Rel (fun x y : String × Nat => x.1 = y.1) (some (name, m)) (some (name, n)) :=
      .some rfl
    exact enterCapture_together hs h hname p q
  · refine together_bind (Input.accept_together h (by decide)) ?_
    rintro _ _ (h' | _)
    · exact namedReference_together hs h'.1
    · refine together_bind (Input.next_together h) ?_
      rintro ⟨_, _⟩ ⟨_, _⟩ ⟨_ | _, _⟩ <;> exact together_error

theorem enterBehind_together (hs : s.Along t) (h : i.Along j) (p q : Nat) :
    Together State.Along (enterBehind s p i) (enterBehind t q j) := by
  unfold enterBehind
  refine together_bind (Input.next_together h) ?_
  rintro ⟨_, i⟩ ⟨_, j⟩ ⟨htu | _, h⟩
  swap
  · exact together_error
  dsimp only
  simp only [htu.plain_iff (c := '=') (by decide), htu.plain_iff (c := '!') (by decide)]
  split
  · rw [← hs.groups.mark]
    have hmark := congrArg (fun n => some (s.groups.mark.getD n)) hs.groups.next_eq
    exact together_pure (hs.enter h (by rintro ⟨⟩) p q hs.level.verbose
      ⟨hs.groups.names, hs.groups.widths, hmark, hs.groups.asked⟩)
  · exact together_error

theorem asked_together (hg : g.Same g') {cs ds : List Char} (hname : Input.Renamed cs ds) (p q : Nat) :
    Together (fun x y => x.1 = y.1 ∧ x.2.Same y.2) (asked g cs p) (asked g' ds q) := by
  rcases eq_or_not_nameable hname with rfl | ⟨hcs, hds⟩
  · unfold asked
    rw [hg.names]
    split
    · split
      · exact together_error
      · exact together_pure ⟨rfl, hg⟩
    · split
      · exact together_error
      · dsimp only
        split
        · exact together_error
        · exact together_pure ⟨rfl, hg.ask _ p q⟩
      · exact together_error
  · -- what asks for a group has neither a dollar sign nor a backslash
    exact together_of_fail (fun x hx => hcs (asked_gives g cs p x hx).1)
      fun y hy => hds (asked_gives g' ds q y hy).1

theorem enterWhether_together (hs : s.Along t) (h : i.Along j) (p q : Nat) :
    Together State.Along (enterWhether s p i) (enterWhether t q j) := by
  unfold enterWhether
  refine together_bind (Input.name_together h _ (by decide)) ?_
  rintro ⟨cs, i⟩ ⟨ds, j⟩ ⟨hname, h⟩
  refine together_bind (asked_together hs.groups hname _ _) ?_
  rintro ⟨group, groups⟩ ⟨_, groups'⟩ ⟨rfl, hgroups⟩
  refine together_bind (checkMark_together hgroups group _ _) fun _ _ _ => ?_
  exact together_pure (hs.enter h (by rintro ⟨⟩) p q hs.level.verbose hgroups)

theorem flags_together (hs : s.Along t) (h : i.Along j) (c : Char) (p q : Nat) :
    Together State.Along (flags s c p i) (flags t c q j) := by
  unfold flags
  refine together_bind (Switches.read_together h c) ?_
  rintro ⟨_ | ⟨on, off⟩, i⟩ ⟨_, j⟩ ⟨rfl, h⟩
  · dsimp only
    rw [isEmpty_eq hs.outer, isEmpty_eq hs.level.done, isEmpty_eq hs.level.items]
    split
    · exact together_error
    · rw [hs.flags]
      exact together_pure ⟨h, rfl, hs.groups, ⟨hs.level.opening, rfl, hs.level.done, hs.level.items⟩,
        hs.outer, hs.inner.of_opening rfl⟩
  · rw [hs.level.verbose]
    exact together_pure (hs.enter h (by rintro ⟨⟩) p q rfl hs.groups)

theorem extension_together (hs : s.Along t) (h : i.Along j) (p q : Nat) :
    Together State.Along (extension s p i) (extension t q j) := by
  have henter : ∀ {opening : Opening} {i j : Input}, opening ≠ .whole → i.Along j →
      Together State.Along (pure (s.enter opening p s.level.verbose i) : Except Failure State)
        (pure (t.enter opening q t.level.verbose j)) :=
    fun ho h => together_pure (hs.enter h ho p q hs.level.verbose hs.groups)
  unfold extension
  refine together_bind (Input.next_together h) ?_
  rintro ⟨_, i⟩ ⟨_, j⟩ ⟨htu | _, h⟩
  swap
  · exact together_error
  rcases htu with rfl | ⟨rfl, rfl⟩
  swap
  · exact together_error
  dsimp only
  split
  · exact named_together hs h p q
  · exact henter (by rintro ⟨⟩) h
  · refine together_bind (Input.skipPast_together h (by decide)) ?_
    rintro _ _ (h' | _)
    · exact together_pure (hs.goTo h')
    · exact together_error
  · exact henter (by rintro ⟨⟩) h
  · exact henter (by rintro ⟨⟩) h
  · exact enterBehind_together hs h p q
  · exact enterWhether_together hs h p q
  · exact henter (by rintro ⟨⟩) h
  · split
    · exact flags_together hs h _ p q
    · exact together_error
  · exact together_error

theorem group_together (hs : s.Along t) (h : i.Along j) (p q : Nat) :
    Together State.Along (group s p i) (group t q j) := by
  unfold group
  refine together_bind (Input.accept_together h (by decide)) ?_
  rintro _ _ (h' | _)
  · exact extension_together hs h'.1 p q
  · exact enterCapture_together hs h .none p q

/-- Levels of groups are closed alike, and the groups are the same again. -/
theorem closed_along {l m : Level} (h : l.Along m) (ho : l.opening ≠ .whole) (hg : g.Same g') :
    Regex.AlongItem (closed l g).1 (closed m g').1 ∧ (closed l g).2.Same (closed m g').2 := by
  obtain ⟨hbody, hfaults⟩ := h.body
  unfold closed
  rw [← h.opening]
  split
  · next hwhole => exact absurd hwhole ho
  · rw [hbody.peers.width]
    exact ⟨⟨Regex.alikeItem_capture hbody _, hfaults, rfl⟩, hg.close _ _⟩
  · exact ⟨⟨Regex.alikeItem_flagged hbody _ _, hfaults, rfl⟩, hg⟩
  · exact ⟨⟨Regex.alikeItem_atomic hbody, hfaults, rfl⟩, hg⟩
  · exact ⟨⟨Regex.alikeItem_look hbody _ _, Regex.sameFaults_look hfaults _ _, rfl⟩, hg⟩
  · rw [hbody.peers.width]
    exact ⟨⟨Regex.alikeItem_look hbody _ _, Regex.sameFaults_look hfaults _ _, rfl⟩,
      hg.names, hg.widths, rfl, hg.asked⟩
  · have hdone := h.done
    have hcurrent := h.current
    generalize l.done = done at hdone
    generalize m.done = done' at hdone
    cases hdone with
    | nil =>
      exact ⟨⟨Regex.alikeItem_whether hcurrent.alike Regex.alike_empty _,
        Regex.sameFaults_whether hcurrent.faults (fun _ => Iff.rfl) _, rfl⟩, hg⟩
    | cons hyes _ =>
      exact ⟨⟨Regex.alikeItem_whether hyes.alike hcurrent.alike _,
        Regex.sameFaults_whether hyes.faults hcurrent.faults _, rfl⟩, hg⟩

/-! ## Steps -/

theorem nextBranch_together (hs : s.Along t) (h : i.Along j) :
    Together State.Along (nextBranch s i) (nextBranch t j) := by
  unfold nextBranch
  refine together_bind (Input.next_together h) ?_
  rintro ⟨_, k⟩ ⟨_, l⟩ ⟨-, hkl⟩
  have hsplit := hs.level.split
  refine together_pure ⟨hkl, hs.flags, hs.groups, ?_, hs.outer, ?_⟩
  · dsimp only
    rw [isEmpty_eq hs.outer]
    split
    · exact ⟨hsplit.opening, congrArg Flags.verbose hs.flags, hsplit.done, hsplit.items⟩
    · exact hsplit
  · refine hs.inner.of_opening ?_
    dsimp only
    split <;> rfl

theorem bar_together (hs : s.Along t) (h : i.Along j) :
    Together State.Along (bar s i) (bar t j) := by
  have hnext := nextBranch_together hs h
  have hdone := hs.level.done
  unfold bar
  rw [hs.level.opening]
  generalize t.level.opening = opening
  generalize s.level.done = done at hdone
  generalize t.level.done = done' at hdone
  cases opening with
  | whether group =>
    cases hdone with
    | nil => exact hnext
    | cons => exact together_error
  | _ => exact hnext

theorem close_together (hs : s.Along t) (h : i.Along j) :
    Together State.Along (close s i) (close t j) := by
  unfold close
  refine together_bind (Input.next_together h) ?_
  rintro ⟨_, i⟩ ⟨_, j⟩ ⟨-, h⟩
  have houter := hs.outer
  have hinner := hs.inner
  dsimp only
  generalize hso : s.outer = outer at houter hinner
  generalize hto : t.outer = outer' at houter
  cases houter with
  | nil => exact together_pure (hs.goTo h)
  | cons haround hrest =>
    obtain ⟨hitem, hgroups⟩ := closed_along hs.level hinner.1 hs.groups
    exact together_pure ⟨h, hs.flags, hgroups, haround.push hitem, hrest, hinner.2.of_opening rfl⟩

theorem onLast_of_not_repeatable {r : Regex} (hr : r.repeatable = false) (p : Nat)
    (count : Repeat.Count) (rest : List Regex) (i : Input) :
    Gives (fun _ => False) (Repeat.onLast p count (r :: rest) i) := by
  cases r with
  | anchor | iterate => exact gives_error
  | _ => cases hr

/-- The last item, which can be repeated, with a count behind it. -/
def repeatLast (count : Repeat.Count) (r : Regex) (rest : List Regex) (i : Input) :
    Except Failure (List Regex × Input) := do
  let (g, i) ← Repeat.greed i
  return (.iterate g count.least count.most r.bare :: rest, i)

theorem onLast_of_repeatable {r : Regex} (hr : r.repeatable = true) (p : Nat) (count : Repeat.Count)
    (rest : List Regex) (i : Input) :
    Repeat.onLast p count (r :: rest) i = repeatLast count r rest i := by
  cases r with
  | anchor | iterate => cases hr
  | _ => rfl

theorem onLast_together {rs rs' : List Regex} (hitems : List.Forall₂ Regex.AlongItem rs rs')
    (h : i.Along j) (p q : Nat) (count : Repeat.Count) :
    Together (Paired (List.Forall₂ Regex.AlongItem)) (Repeat.onLast p count rs i)
      (Repeat.onLast q count rs' j) := by
  cases hitems with
  | nil => exact together_error
  | @cons r r' rest rest' hr hrest =>
    cases hrepeat : r.repeatable with
    | false =>
      exact together_of_fail (onLast_of_not_repeatable hrepeat p count rest i)
        (onLast_of_not_repeatable (hr.repeatable ▸ hrepeat) q count rest' j)
    | true =>
      rw [onLast_of_repeatable hrepeat, onLast_of_repeatable (hr.repeatable ▸ hrepeat)]
      refine together_bind (Repeat.greed_together h) ?_
      rintro ⟨greed, i⟩ ⟨_, j⟩ ⟨rfl, h⟩
      exact together_pure ⟨.cons (hr.iterate greed _ _) hrest, h⟩

/-- A character that does not open a class. -/
theorem character_together (hs : s.Along t) (h : i.Along j) {c : Char} (hc : c ≠ '[') :
    Together State.Along (character s c i) (character t c j) := by
  have hitem : ∀ {r : Regex} {i j : Input}, r.isPlain = true → i.Along j →
      Together State.Along (pure (s.push r i) : Except Failure State) (pure (t.push r j)) :=
    fun hr h => together_pure (hs.push h (Regex.alongItem_plain hr))
  unfold character
  dsimp only
  rw [hs.level.verbose]
  split
  · exact together_pure (hs.goTo h)
  split
  · refine together_bind (Input.skipPast_together h (by decide)) ?_
    rintro _ _ (h' | _)
    · exact together_pure (hs.goTo h')
    · exact together_pure (hs.goTo spelled_nil)
  split
  · exact absurd rfl hc
  · exact hitem rfl h
  · exact hitem rfl h
  · exact hitem rfl h
  · exact group_together hs h _ _
  · split
    · refine together_bind (Repeat.count?_together h c) ?_
      rintro _ _ (@⟨⟨count, i⟩, ⟨_, j⟩, ⟨rfl, h⟩⟩ | _)
      · refine together_bind (onLast_together hs.level.items h _ _ count) ?_
        rintro ⟨items, i⟩ ⟨items', j⟩ ⟨hitems, h⟩
        exact together_pure (hs.withLevel h
          ⟨hs.level.opening, rfl, hs.level.done, hitems⟩ rfl)
      · exact hitem rfl h
    · exact hitem rfl h

theorem character_dollar (s : State) (i : Input) :
    character s '$' i = .ok (s.push (.anchor .lineEnd) i) := by
  unfold character
  cases s.level.verbose <;> rfl

theorem pushEscape_together (hs : s.Along t) (h : i.Along j) (c : Char) :
    Together State.Along (pushEscape s c i) (pushEscape t c j) := by
  unfold pushEscape
  refine together_bind ((escape_together hs.groups h c).and (escape_gives s.groups c i)
    (escape_gives t.groups c j)) ?_
  rintro ⟨r, k⟩ ⟨_, l⟩ ⟨⟨rfl, hkl⟩, ⟨⟨hr, -⟩, -⟩, -⟩
  exact together_pure (hs.push hkl (Regex.alongItem_plain hr))

/-- Adds the class whose opening bracket has been read. -/
def pushClass (s : State) (i : Input) : Except Failure State := do
  let (r, i) ← Bracket.read (i.place - 1) i
  return s.push r i

theorem character_bracket (s : State) (i : Input) : character s '[' i = pushClass s i := by
  unfold character
  cases s.level.verbose <;> rfl

end Reader

/-- The text of the class that the input begins with, up to its closing bracket, if it begins with one
that can be read. -/
def State.class? (s : State) : Option (List Token) :=
  match s.input.rest with
  | .plain '[' :: rest =>
    match Bracket.read s.input.place ⟨rest, s.input.place + 1⟩ with
    | .ok (_, i) => some (rest.take (rest.length - i.rest.length))
    | .error _ => none
  | _ => none

/-- The class that the input begins with, if it does, is left as it is where anchors are spelled out. -/
def State.Plain (s : State) : Prop :=
  ∀ text, s.class? = some text → Clear true text

namespace Reader

variable {s t : State}

theorem class?_eq {rest text : List Token} {r : Regex} {i : Input}
    (hs : s.input.rest = .plain '[' :: rest)
    (hr : Bracket.read s.input.place ⟨rest, s.input.place + 1⟩ = .ok (r, i))
    (htext : rest = text ++ i.rest) : s.class? = some text := by
  have hlength : text.length = rest.length - i.rest.length := by
    rw [htext, List.length_append]
    omega
  unfold State.class?
  rw [hs]
  simp only [hr]
  exact congrArg some (by rw [← hlength, htext, List.take_left])

theorem exists_of_class? {text : List Token} (h : s.class? = some text) :
    ∃ rest r i, s.input.rest = .plain '[' :: rest ∧
      Bracket.read s.input.place ⟨rest, s.input.place + 1⟩ = .ok (r, i) := by
  unfold State.class? at h
  split at h
  · next rest hrest =>
    split at h
    · next r i hr => exact ⟨rest, r, i, hrest, hr⟩
    · cases h
  · cases h

theorem plain_of_ne_bracket {a : Token} {rest : List Token} (hs : s.input.rest = a :: rest)
    (ha : a ≠ .plain '[') : s.Plain := by
  intro text htext
  obtain ⟨_, _, _, h, -⟩ := exists_of_class? htext
  exact absurd (List.cons.inj (hs.symm.trans h)).1 ha

/-- Behind an opening bracket the scan is between brackets, wherever it was before. -/
theorem pushClass_together (hs : s.Along t) {rest : List Token}
    (hi : s.input.rest = .plain '[' :: rest) {j : Input} (hj : j.rest = spelledFrom true rest) :
    TogetherIf s.Plain State.Along (pushClass s ⟨rest, s.input.place + 1⟩) (pushClass t j) := by
  have hguard := Bracket.read_guarded (i := ⟨rest, s.input.place + 1⟩) ⟨true, hj⟩ s.input.place
    (j.place - 1)
  have hpush : ∀ a b, Bracket.read s.input.place ⟨rest, s.input.place + 1⟩ = .ok a →
      Passed ⟨rest, s.input.place + 1⟩ j a b → (s.push a.1 a.2).Along (t.push b.1 b.2) := by
    intro a b ha hab
    have hplain := (Bracket.read_gives _ _ a ha).1
    rw [← hab.1]
    exact hs.push hab.2.1 (Regex.alongItem_plain hplain)
  unfold pushClass
  constructor
  · intro hplain s' hs'
    obtain ⟨a, ha, hs'⟩ := bind_eq_ok_iff.mp hs'
    cases hs'
    obtain ⟨text, htext⟩ : ∃ text, rest = text ++ a.2.rest := hguard.suffix a ha
    obtain ⟨more, hmore⟩ := clear_iff_append.mp (hplain text (class?_eq hi ha htext))
    obtain ⟨b, hb⟩ := hguard.forth a text more ha htext (by rw [hj, htext, hmore])
    obtain ⟨a', ha', hab⟩ := hguard.back b hb
    cases ha.symm.trans ha'
    exact ⟨_, bind_eq_ok_iff.mpr ⟨b, hb, rfl⟩, hpush a b ha hab⟩
  · intro t' ht'
    obtain ⟨b, hb, ht'⟩ := bind_eq_ok_iff.mp ht'
    cases ht'
    obtain ⟨a, ha, hab⟩ := hguard.back b hb
    refine ⟨?_, _, bind_eq_ok_iff.mpr ⟨a, ha, rfl⟩, hpush a b ha hab⟩
    obtain ⟨text, htext, hboth⟩ : ∃ text, rest = text ++ a.2.rest ∧ j.rest = text ++ b.2.rest :=
      hab.2.2
    intro text' htext'
    cases htext'.symm.trans (class?_eq hi ha htext)
    exact clear_iff_append.mpr ⟨b.2.rest, by rw [← htext, ← hj, hboth]⟩

/-- A step into a class. -/
theorem step_bracket (hs : s.Along t) {rest : List Token} (hi : s.input.rest = .plain '[' :: rest) :
    TogetherIf s.Plain State.Along (step s (.plain '[')) (step t (.plain '[')) := by
  have hj : t.input.rest = .plain '[' :: spelledFrom true rest := by
    obtain ⟨inClass, hj⟩ := hs.input
    rw [hj, hi]
    cases inClass <;> rfl
  have hnext : Together (fun x y => x.2 = ⟨rest, s.input.place + 1⟩ ∧ y.2.rest = spelledFrom true rest)
      s.input.next t.input.next := by
    unfold Input.next
    rw [hi, hj]
    have hsettle : Gives (· = ⟨rest, s.input.place + 1⟩) (Input.settle rest (s.input.place + 1)) := by
      unfold Input.settle
      split
      · exact gives_error
      · exact gives_ok.mpr rfl
    refine together_bind ((Input.settle_together ⟨true, rfl⟩ _ _).and hsettle
      (Input.settle_gives _ _)) ?_
    rintro k l ⟨-, rfl, hl⟩
    exact together_ok ⟨rfl, hl⟩
  have hclass : ∀ x y : Option Token × Input,
      x.2 = ⟨rest, s.input.place + 1⟩ ∧ y.2.rest = spelledFrom true rest →
      TogetherIf s.Plain State.Along (character s '[' x.2) (character t '[' y.2) := by
    rintro x y ⟨hx, hy⟩
    rw [hx, character_bracket, character_bracket]
    exact pushClass_together hs hi hy
  refine ((hnext.when trivial).bind hclass).congr fun s' hs' => ?_
  obtain ⟨x, hx, -⟩ := bind_eq_ok_iff.mp hs'
  exact ⟨fun h => h.2 x hx, fun h => ⟨trivial, fun _ _ => h⟩⟩

/-- **A step keeps the states along.**  The two tokens are the same, or they are the two ways to write an
end. -/
theorem step_together (hs : s.Along t) {a b : Token} {as : List Token} (hi : s.input.rest = a :: as)
    (hab : Respelled a b) : TogetherIf s.Plain State.Along (step s a) (step t b) := by
  have hnext := Input.next_together hs.input
  rcases hab with rfl | ⟨rfl, rfl⟩
  · by_cases hb : b = .plain '['
    · subst hb
      exact step_bracket hs hi
    refine Together.when ?_ (plain_of_ne_bracket hi hb)
    unfold step
    split
    · exact bar_together hs hs.input
    · exact close_together hs hs.input
    · exact together_bind hnext fun _ _ h => character_together hs h.2 (by rintro rfl; exact hb rfl)
    · exact together_bind hnext fun _ _ h => pushEscape_together hs h.2 _
    · exact together_pure (hs.goTo spelled_nil)
  · -- a dollar sign on the one side, the escape for it on the other
    refine Together.when ?_ (plain_of_ne_bracket hi (by decide))
    refine together_bind hnext ?_
    rintro ⟨_, i⟩ ⟨_, j⟩ ⟨-, h⟩
    dsimp only
    rw [character_dollar]
    exact together_ok (hs.push h Regex.alongItem_ends)

/-- **A run keeps the states along**, as long as it comes upon plain classes only. -/
theorem run_together (n : Nat) : ∀ {s t : State}, s.Along t →
    TogetherIf (∀ s' ∈ passed n s, s'.Plain) State.Along (run n s) (run n t) := by
  have hend : ∀ {s t : State}, s.Along t →
      TogetherIf (∀ s' ∈ ([] : List State), s'.Plain) State.Along
        (.ok s : Except Failure State) (.ok t) :=
    fun hs => (together_ok hs).when fun _ h => absurd h List.not_mem_nil
  induction n with
  | zero => exact fun hs => hend hs
  | succ n ih =>
    intro s t hs
    unfold run passed
    rcases Spelled.cases hs.input with ⟨hi, hj⟩ | ⟨a, b, as, bs, hi, hj, hab, -⟩
    · rw [hi, hj]
      exact hend hs
    · rw [hi, hj]
      dsimp only
      simp only [hab.plain_iff (c := ')') (by decide), isEmpty_eq hs.outer]
      split
      · exact hend hs
      · refine ((step_together hs hi hab).bind fun _ _ h => ih h).congr fun last hlast => ?_
        obtain ⟨next, hnext, -⟩ := bind_eq_ok_iff.mp hlast
        rw [hnext, List.forall_mem_cons]
        simp only [Except.ok.injEq, forall_eq']

theorem finish_together (hs : s.Along t) :
    Together (fun p q => Regex.Along p.regex q.regex ∧ p.flags = q.flags) (finish s) (finish t) := by
  have hasked : (s.groups.asked.find? fun a => s.groups.next ≤ a.1).isSome =
      (t.groups.asked.find? fun a => t.groups.next ≤ a.1).isSome := by
    rw [List.isSome_find?, List.isSome_find?, Groups.Same.any_asked _ (s.groups.next ≤ ·),
      Groups.Same.any_asked _ (t.groups.next ≤ ·), hs.groups.asked, hs.groups.next_eq]
  have hrest : s.input.rest.isEmpty = t.input.rest.isEmpty := by
    rcases Spelled.cases hs.input with ⟨hi, hj⟩ | ⟨a, b, as, bs, hi, hj, -⟩
    · rw [hi, hj]
    · rw [hi, hj]
      rfl
  unfold finish
  dsimp only
  rw [isEmpty_eq hs.outer, hs.flags, hrest]
  split
  · exact together_error
  split
  · exact together_error
  split
  · exact together_error
  generalize (s.groups.asked.find? fun a => s.groups.next ≤ a.1) = x at hasked
  generalize (t.groups.asked.find? fun a => t.groups.next ≤ a.1) = y at hasked
  cases x with
  | some a =>
    cases y with
    | some b => exact together_error
    | none => cases hasked
  | none =>
    cases y with
    | some b => cases hasked
    | none => exact together_pure ⟨hs.level.body, rfl⟩

end Reader

/-- **A pattern and its spelling are read into expressions that are put together alike**, under the same
flags.  The spelling can be read exactly if the pattern can and all its classes are plain. -/
theorem parse_together (source : List Char) :
    TogetherIf (∀ s ∈ visited source, s.Plain)
      (fun p q => Regex.Along p.regex q.regex ∧ p.flags = q.flags) (parse source)
      (parse (endAnchors source)) := by
  have htokens : Spelled (tokenize source) (tokenize (endAnchors source)) :=
    ⟨false, tokenize_endAnchors source⟩
  have hrun : ∀ i j : Input, i.Along j →
      TogetherIf (∀ s ∈ Reader.passed i.rest.length (.start i), s.Plain)
        (fun p q => Regex.Along p.regex q.regex ∧ p.flags = q.flags)
        (Reader.run i.rest.length (.start i) >>= Reader.finish)
        (Reader.run j.rest.length (.start j) >>= Reader.finish) := by
    intro i j h
    have hstart : (State.start i).Along (.start j) :=
      ⟨h, rfl, ⟨rfl, rfl, rfl, rfl⟩, ⟨rfl, rfl, .nil, .nil⟩, .nil, trivial⟩
    rw [← h.length_eq]
    refine ((Reader.run_together _ hstart).bind fun _ _ hs =>
      (Reader.finish_together hs).when trivial).congr fun _ _ => ?_
    exact ⟨fun h => h.1, fun h => ⟨h, fun _ _ => trivial⟩⟩
  unfold parse
  refine (((Input.settle_together htokens 0 0).when trivial).bind hrun).congr fun p hp => ?_
  obtain ⟨input, hinput, -⟩ := bind_eq_ok_iff.mp hp
  unfold visited Input.ofChars
  rw [hinput]
  simp only [Except.ok.injEq, forall_eq', true_and]

/-- What a pattern and its spelling are read into is put together alike, if both can be read. -/
theorem parse_both (source : List Char) :
    Both (fun p q => Alike p.regex q.regex ∧ p.flags = q.flags) (parse source)
      (parse (endAnchors source)) := by
  intro p q hp hq
  obtain ⟨halong, hflags⟩ := (parse_together source).both p q hp hq
  exact ⟨halong.alike, hflags⟩

end AttributeLint.Pattern
