import AttributeLint.Pattern.Compiled
import AttributeLint.Proofs.Pattern.Passing

/-!
# What a step of reading can do

A step adds an item, repeats the last one, starts the next alternative, opens a group, closes one,
switches flags of the whole pattern, or passes over a part that means nothing.  `Move` lists these with
all that later arguments need to know of them, and `step_move` says that there is nothing else.  Facts
about whole patterns follow by an induction along `Reader.run`, with one case for each kind of move.

* `State.comment?`: the text of the comment that the input begins with.
* `Move`, `Reader.step_move`: the moves, and that each step is one.
* `visited`, `parse_induction`: the states that reading a pattern passes through, and that what their
  moves preserve holds where it ends.
* `Level.features`: what the expressions of a level have inside them.
-/

namespace AttributeLint.Pattern

/-- The text of the comment that the input begins with, if it does. -/
def State.comment? (s : State) : Option (List Token) :=
  match s.input.rest with
  | .plain '(' :: .plain '?' :: .plain '#' :: rest => some (rest.takeWhile (· ≠ .plain ')'))
  | .plain '#' :: rest =>
    if s.level.verbose then some (rest.takeWhile (· ≠ .plain '\n')) else none
  | _ => none

/-- What becomes of the groups where a level is opened: a group that captures is the next one, and
nothing else adds a group. -/
def Opens (g : Groups) (opening : Opening) (g' : Groups) : Prop :=
  (opening = .capture g.next ∧ g'.widths = g.widths ++ [none]) ∨
    (∀ n, opening ≠ .capture n) ∧ g'.widths = g.widths

/-- Whether the scan passes over some tokens from outside brackets to outside brackets. -/
def balanced (ts : List Token) : Bool :=
  !ts.foldl Token.bracketed false

/-- What a step can do.  Only in passing over a comment the scan can come to stand between brackets. -/
inductive Move (s : State) : State → Prop
  | push (r : Regex) (i : Input) (hplain : r.isPlain = true)
      (hclosed : ∀ g w, r = .backref g w → s.groups.closed? g = some w)
      (hend : r = .anchor .lineEnd → s.input.rest.head? = some (.plain '$'))
      (hout : Outside s.input.rest i.rest) : Move s (s.push r i)
  | skip (i : Input)
      (hout : (∀ body, s.comment? = some body → balanced body = true) →
        Outside s.input.rest i.rest) : Move s (s.goTo i)
  | again (g : Greed) (count : Repeat.Count) (r : Regex) (rest : List Regex) (i : Input)
      (hitems : s.level.items = r :: rest) (hout : Outside s.input.rest i.rest) :
      Move s { s with
        level := { s.level with items := .iterate g count.least count.most r.bare :: rest }
        input := i }
  | flags (f : Flags) (i : Input) (hout : Outside s.input.rest i.rest) :
      Move s { s with flags := f, level := { s.level with verbose := f.verbose }, input := i }
  | bar (verbose : Bool) (i : Input)
      (hbranch : ∀ group, s.level.opening = .whether group → s.level.done = [])
      (hout : Outside s.input.rest i.rest) :
      Move s { s with level := { s.level.split with verbose }, input := i }
  | enter (opening : Opening) (start : Nat) (verbose : Bool) (groups : Groups) (i : Input)
      (hopens : Opens s.groups opening groups) (hout : Outside s.input.rest i.rest) :
      Move s { s.enter opening start verbose i with groups }
  | close (around : Level) (outer : List Level) (i : Input) (houter : s.outer = around :: outer)
      (hout : Outside s.input.rest i.rest) :
      Move s { s with
        input := i
        groups := (Reader.closed s.level s.groups).2
        level := around.push (Reader.closed s.level s.groups).1
        outer }

theorem Outside.of_balanced {body : List Token} {stop : Token} (hbody : balanced body = true)
    (hstop : stop ≠ .plain '[') (rest : List Token) : Outside (body ++ stop :: rest) rest := by
  have hout : Outside (body ++ stop :: rest) (stop :: rest) :=
    Or.inr ⟨body, rfl, by simpa [balanced] using hbody⟩
  exact hout.trans (Outside.cons hstop rest)

namespace Reader

/-! ## References and escapes -/

theorem reference_gives (g : Groups) (group start : Nat) (i : Input) :
    Gives (fun r => ∃ w, r = .backref group w ∧ g.closed? group = some w)
      (reference g group start i) := by
  unfold reference
  split
  · exact gives_throw
  · next w hw =>
    rw [gives_bind]
    exact fun _ _ => gives_pure.mpr ⟨w, rfl, hw⟩

/-- An item that an escape can stand for. -/
def Escaped (g : Groups) (r : Regex) : Prop :=
  r.isPlain = true ∧ (∀ n w, r = .backref n w → g.closed? n = some w) ∧ r ≠ .anchor .lineEnd

theorem escaped_code (g : Groups) (n : Nat) : Escaped g (.code false n) :=
  ⟨rfl, nofun, nofun⟩

/-- A reference by number, to a group that has been opened. -/
def refer (g : Groups) (group start : Nat) (i : Input) : Except Failure (Regex × Input) := do
  if group < g.next then
    let r ← reference g group start i
    return (r, i)
  else throw (.at (start + 1) (.unknownGroup group))

theorem refer_gives (g : Groups) (group start : Nat) {l : List Token} {i : Input}
    (hi : Outside l i.rest) :
    Gives (fun (r, j) => Escaped g r ∧ Outside l j.rest) (refer g group start i) := by
  unfold refer
  split
  · rw [gives_bind]
    refine (reference_gives g group start i).mono ?_
    rintro _ ⟨w, rfl, hw⟩
    refine gives_pure.mpr ⟨⟨rfl, ?_, nofun⟩, hi⟩
    rintro n v hr
    cases hr
    exact hw
  · exact gives_throw

theorem digits_gives (g : Groups) (c : Char) (i : Input) :
    Gives (fun (r, j) => Escaped g r ∧ Outside i.rest j.rest) (digits g c i) := by
  unfold digits
  rw [gives_bind]
  refine (Input.takeWhile_outside (by decide) (by decide) 1 i).mono ?_
  rintro ⟨second, j⟩ hj
  dsimp only at hj ⊢
  split
  · rw [gives_bind]
    refine (Input.takeWhile_outside (by decide) (by decide) 1 j).mono ?_
    rintro ⟨third, k⟩ hk
    dsimp only at hk ⊢
    split
    · split
      · exact gives_throw_bind
      · exact gives_pure.mpr ⟨escaped_code g _, hj.trans hk⟩
    · exact refer_gives g _ _ hj
  · exact refer_gives g _ _ hj

theorem escape_gives (g : Groups) (c : Char) (i : Input) :
    Gives (fun (r, j) => Escaped g r ∧ Outside i.rest j.rest) (escape g c i) := by
  unfold escape
  split
  · next a ha =>
    refine gives_pure.mpr ⟨⟨rfl, nofun, ?_⟩, .refl _⟩
    rintro hr
    cases hr
    unfold Escape.anchor? at ha
    split at ha <;> cases ha
  · next atom _ _ =>
    refine gives_pure.mpr ⟨?_, .refl _⟩
    cases atom with
    | code n => exact escaped_code g n
    | category k negated => exact ⟨rfl, nofun, nofun⟩
  · exact gives_pure.mpr ⟨escaped_code g _, .refl _⟩
  · next hread _ _ _ =>
    rw [gives_bind]
    exact (Escape.number?_flat hread).mono fun _ hj => gives_pure.mpr ⟨escaped_code g _, hj.outside⟩
  · split
    · rw [gives_bind]
      exact (Escape.octal_flat c i).mono fun _ hj => gives_pure.mpr ⟨escaped_code g _, hj.outside⟩
    · split
      · exact digits_gives g c i
      · rw [gives_bind]
        exact (Escape.itself_flat c i).mono fun _ hj => gives_pure.mpr ⟨escaped_code g _, hj.outside⟩

/-! ## Groups -/

section Groups

variable {s : State} {i : Input} (hi : Outside s.input.rest i.rest)
include hi

theorem enterCapture_move (name : Option (String × Nat)) (start : Nat) :
    Gives (Move s) (enterCapture s name start i) := by
  have hmove : Move s { s.enter (.capture s.groups.next) start s.level.verbose i with
      groups := s.groups.openNext (name.map (·.1)) } :=
    .enter _ _ _ _ i (Or.inl ⟨rfl, rfl⟩) hi
  unfold enterCapture
  cases name with
  | none => exact gives_pure.mpr hmove
  | some name =>
    dsimp only
    split
    · exact gives_throw_bind
    · exact gives_pure.mpr hmove

/-- Opening a group that does not capture. -/
theorem Move.enter_plain (opening : Opening) (h : ∀ n, opening ≠ .capture n) (start : Nat)
    (verbose : Bool) : Move s (s.enter opening start verbose i) :=
  .enter opening start verbose s.groups i (Or.inr ⟨h, rfl⟩) hi

theorem namedReference_move : Gives (Move s) (namedReference s i) := by
  unfold namedReference
  rw [gives_bind]
  refine (groupName_outside (by decide) i).mono ?_
  rintro ⟨name, place, j⟩ hj
  dsimp only
  split
  · exact gives_throw
  · next group _ =>
    rw [gives_bind]
    refine (reference_gives s.groups group place j).mono ?_
    rintro _ ⟨w, rfl, hw⟩
    refine gives_pure.mpr (.push _ _ rfl ?_ nofun (hi.trans hj))
    rintro n v hr
    cases hr
    exact hw

theorem named_move (start : Nat) : Gives (Move s) (named s start i) := by
  unfold named
  rw [gives_bind]
  refine (Input.accept_gives '<' i).mono ?_
  rintro (_ | j) hj
  · dsimp only
    rw [gives_bind]
    refine (Input.accept_gives '=' i).mono ?_
    rintro (_ | k) hk
    · dsimp only
      rw [gives_bind]
      rintro ⟨_ | t, k⟩ _ <;> exact gives_throw
    · exact namedReference_move (hi.trans (hk k rfl ▸ Outside.cons (by decide) _))
  · have hij : Outside s.input.rest j.rest := hi.trans (hj j rfl ▸ Outside.cons (by decide) _)
    dsimp only
    rw [gives_bind]
    refine (groupName_outside (by decide) j).mono ?_
    rintro ⟨name, place, k⟩ hk
    exact enterCapture_move (hij.trans hk) _ _

theorem enterBehind_move (start : Nat) : Gives (Move s) (enterBehind s start i) := by
  unfold enterBehind
  rw [gives_bind]
  refine (Input.next_gives i).mono ?_
  rintro ⟨_, j⟩ (⟨rfl, -⟩ | ⟨t, rfl, hj⟩)
  · exact gives_throw
  dsimp only
  split
  · next ht =>
    have hne : t ≠ .plain '[' := by
      rintro rfl
      exact absurd ht (by decide)
    exact gives_pure.mpr (.enter _ _ _ _ j (Or.inr ⟨nofun, rfl⟩)
      (hi.trans (hj ▸ Outside.cons hne _)))
  · exact gives_throw

theorem enterWhether_move (start : Nat) : Gives (Move s) (enterWhether s start i) := by
  unfold enterWhether
  rw [gives_bind]
  refine (Input.name_gives _ ')' i).mono ?_
  rintro ⟨name, j⟩ ⟨ts, hts, rfl⟩
  dsimp only
  rw [gives_bind]
  refine (asked_gives s.groups _ _).mono ?_
  rintro ⟨group, groups⟩ ⟨hname, hwidths⟩
  dsimp only
  rw [gives_bind]
  refine fun _ _ => gives_pure.mpr (.enter _ _ _ _ j (Or.inr ⟨nofun, hwidths⟩) (hi.trans ?_))
  rw [hts]
  exact Outside.of_name _ hname (by decide)

theorem flags_move (c : Char) (start : Nat) : Gives (Move s) (flags s c start i) := by
  unfold flags
  rw [gives_bind]
  refine (Switches.read_outside c i).mono ?_
  rintro ⟨_ | ⟨on, off⟩, j⟩ hj
  · dsimp only
    split
    · exact gives_throw_bind
    · exact gives_pure.mpr (.flags _ j (hi.trans hj))
  · exact gives_pure.mpr (Move.enter_plain (hi.trans hj) _ (by nofun) _ _)

end Groups

theorem extension_move {s : State} {i : Input}
    (hs : s.input.rest = .plain '(' :: .plain '?' :: i.rest) (start : Nat) :
    Gives (Move s) (extension s start i) := by
  unfold extension
  rw [gives_bind]
  refine (Input.next_gives i).mono ?_
  rintro ⟨_, j⟩ (⟨rfl, -⟩ | ⟨t, rfl, hj⟩)
  · exact gives_throw
  have hi : Outside s.input.rest i.rest := by
    rw [hs]
    exact (Outside.cons (by decide) _).trans (Outside.cons (by decide) _)
  have hout : t ≠ .plain '[' → Outside s.input.rest j.rest := by
    intro ht
    exact hi.trans (hj ▸ Outside.cons ht _)
  dsimp only
  split
  · exact named_move (hout (by decide)) start
  · exact gives_pure.mpr (Move.enter_plain (hout (by decide)) _ (by nofun) _ _)
  · rw [gives_bind]
    refine (Input.skipPast_gives ')' j).mono ?_
    rintro (_ | k) hk
    · exact gives_throw
    · refine gives_pure.mpr (.skip k fun hbody => ?_)
      have hcomment : s.comment? = some (j.rest.takeWhile (· ≠ .plain ')')) := by
        rw [State.comment?, hs, hj]
        rfl
      refine (hout (by decide)).trans ?_
      rw [hk k rfl]
      exact Outside.of_balanced (hbody _ hcomment) (by decide) _
  · exact gives_pure.mpr (Move.enter_plain (hout (by decide)) _ (by nofun) _ _)
  · exact gives_pure.mpr (Move.enter_plain (hout (by decide)) _ (by nofun) _ _)
  · exact enterBehind_move (hout (by decide)) start
  · exact enterWhether_move (hout (by decide)) start
  · exact gives_pure.mpr (Move.enter_plain (hout (by decide)) _ (by nofun) _ _)
  · next c _ _ _ _ _ _ _ _ =>
    split
    · next hc =>
      refine flags_move (hout ?_) c start
      rintro ⟨⟩
      exact absurd hc (by decide)
    · exact gives_error
  · exact gives_error

theorem group_move {s : State} {i : Input} (hs : s.input.rest = .plain '(' :: i.rest)
    (start : Nat) : Gives (Move s) (group s start i) := by
  unfold group
  rw [gives_bind]
  refine (Input.accept_gives '?' i).mono ?_
  rintro (_ | j) hj
  · refine enterCapture_move ?_ none start
    rw [hs]
    exact Outside.cons (by decide) _
  · exact extension_move (by rw [hs, hj j rfl]) start

/-! ## Steps -/

/-- Goes on behind a bar with the next alternative. -/
def nextBranch (s : State) (i : Input) : Except Failure State := do
  let (_, i) ← i.next
  let level := s.level.split
  let level := if s.outer.isEmpty then { level with verbose := s.flags.verbose } else level
  return { s with level, input := i }

theorem nextBranch_move {s : State} {rest : List Token} (hs : s.input.rest = .plain '|' :: rest)
    (hbranch : ∀ group, s.level.opening = .whether group → s.level.done = []) :
    Gives (Move s) (nextBranch s s.input) := by
  unfold nextBranch
  rw [gives_bind]
  refine (Input.next_gives s.input).mono ?_
  rintro ⟨_, i⟩ (⟨rfl, -, hnil⟩ | ⟨t, rfl, hi⟩)
  · rw [hs] at hnil
    cases hnil
  have ht : t ≠ .plain '[' := by
    rw [hs] at hi
    cases hi
    decide
  refine gives_pure.mpr ?_
  split
  · exact .bar _ i hbranch (hi ▸ Outside.cons ht _)
  · exact .bar s.level.verbose i hbranch (hi ▸ Outside.cons ht _)

theorem bar_move {s : State} {rest : List Token} (hs : s.input.rest = .plain '|' :: rest) :
    Gives (Move s) (bar s s.input) := by
  unfold bar
  dsimp only
  split
  · exact gives_throw_bind
  · next hnot =>
    refine nextBranch_move hs fun group hgroup => ?_
    cases hdone : s.level.done with
    | nil => rfl
    | cons r done => exact (hnot group r done hgroup hdone).elim

theorem close_move {s : State} {rest : List Token} (hs : s.input.rest = .plain ')' :: rest) :
    Gives (Move s) (close s s.input) := by
  unfold close
  rw [gives_bind]
  refine (Input.next_gives s.input).mono ?_
  rintro ⟨_, i⟩ (⟨rfl, -, hnil⟩ | ⟨t, rfl, hi⟩)
  · rw [hs] at hnil
    cases hnil
  have ht : t ≠ .plain '[' := by
    rw [hs] at hi
    cases hi
    decide
  have hout : Outside s.input.rest i.rest := hi ▸ Outside.cons ht _
  dsimp only
  split
  · exact gives_pure.mpr (.skip i fun _ => hout)
  · next around outer houter => exact gives_pure.mpr (.close around outer i houter hout)

/-- A blank or a comment where these are skipped, or else what the character stands for. -/
theorem character_move {s : State} {c : Char} {i : Input} (hs : s.input.rest = .plain c :: i.rest) :
    Gives (Move s) (character s c i) := by
  have hout : c ≠ '[' → Outside s.input.rest i.rest := by
    intro hc
    rw [hs]
    exact Outside.cons (fun h => hc (Token.plain.inj h)) _
  have hcode : c ≠ '[' → Move s (s.push (.code false c.toNat) i) :=
    fun hc => .push _ i rfl nofun nofun (hout hc)
  unfold character
  dsimp only
  split
  · next h =>
    refine gives_pure.mpr (.skip i fun _ => hout ?_)
    rintro rfl
    simp [isGap] at h
  split
  · next h =>
    obtain ⟨hverbose, rfl⟩ : s.level.verbose = true ∧ c = '#' := by simpa using h
    have hcomment : s.comment? = some (i.rest.takeWhile (· ≠ .plain '\n')) := by
      rw [State.comment?, hs]
      exact if_pos hverbose
    rw [gives_bind]
    refine (Input.skipPast_gives '\n' i).mono ?_
    rintro (_ | j) hj
    · exact gives_pure.mpr (.skip _ fun _ => Or.inl rfl)
    · refine gives_pure.mpr (.skip j fun hbody => ?_)
      refine (hout (by decide)).trans ?_
      rw [hj j rfl]
      exact Outside.of_balanced (hbody _ hcomment) (by decide) _
  split
  · rw [gives_bind]
    refine (Bracket.read_gives _ i).mono ?_
    rintro ⟨r, j⟩ ⟨hplain, hfeatures, passed, hpassed, -⟩
    refine gives_pure.mpr (.push r j hplain ?_ ?_ ?_)
    · rintro g w rfl
      cases hfeatures
    · rintro rfl
      cases hfeatures
    · rw [hs, hpassed]
      exact Outside.of_class passed j.rest
  · exact gives_pure.mpr (.push _ i rfl nofun nofun (hout (by decide)))
  · exact gives_pure.mpr (.push _ i rfl nofun nofun (hout (by decide)))
  · refine gives_pure.mpr (.push _ i rfl nofun (fun _ => ?_) (hout (by decide)))
    rw [hs, List.head?_cons]
  · exact group_move hs _
  · next hbracket _ _ _ _ =>
    split
    · rw [gives_bind]
      refine (Repeat.count?_outside c i).mono ?_
      rintro (_ | ⟨count, j⟩) hj
      · exact gives_pure.mpr (hcode hbracket)
      · dsimp only
        rw [gives_bind]
        refine (Repeat.onLast_gives _ count s.level.items j).mono ?_
        rintro ⟨_, k⟩ ⟨hk, g, r, rest, hitems, rfl⟩
        exact gives_pure.mpr (.again g count r rest k hitems
          ((hout hbracket).trans ((hj count j rfl).trans hk)))
    · exact gives_pure.mpr (hcode hbracket)

/-- Adds the item that an escape stands for. -/
def pushEscape (s : State) (c : Char) (i : Input) : Except Failure State := do
  let (r, i) ← escape s.groups c i
  return s.push r i

theorem pushEscape_move {s : State} {c : Char} {i : Input}
    (hs : s.input.rest = .escaped c :: i.rest) : Gives (Move s) (pushEscape s c i) := by
  unfold pushEscape
  rw [gives_bind]
  refine (escape_gives s.groups c i).mono ?_
  rintro ⟨r, j⟩ ⟨⟨hplain, hclosed, hend⟩, hj⟩
  refine gives_pure.mpr (.push r j hplain hclosed (fun h => absurd h hend) ?_)
  rw [hs]
  exact (Outside.cons (by rintro ⟨⟩) _).trans hj

/-- **Every step is a move.** -/
theorem step_move {s : State} {t : Token} {rest : List Token} (hs : s.input.rest = t :: rest) :
    Gives (Move s) (step s t) := by
  have hnext : Gives (fun x => s.input.rest = t :: x.2.rest) s.input.next := by
    refine (Input.next_gives s.input).mono ?_
    rintro ⟨_, i⟩ (⟨rfl, -, hnil⟩ | ⟨u, rfl, hi⟩)
    · rw [hs] at hnil
      cases hnil
    · rw [hs] at hi ⊢
      cases hi
      rfl
  unfold step
  split
  · exact bar_move hs
  · exact close_move hs
  · rw [gives_bind]
    exact hnext.mono fun _ hi => character_move hi
  · rw [gives_bind]
    exact hnext.mono fun _ hi => pushEscape_move hi
  · exact gives_pure.mpr (.skip _ fun _ => Or.inl rfl)

/-! ## Runs -/

/-- The states from which a run makes its steps, from the first on. -/
def passed : Nat → State → List State
  | 0, _ => []
  | n + 1, s =>
    match s.input.rest with
    | [] => []
    | t :: _ =>
      if t = .plain ')' && s.outer.isEmpty then []
      else
        match step s t with
        | .ok next => s :: passed n next
        | .error _ => []

/-- What every move from a state of a run preserves holds where the run ends. -/
theorem run_induction {P Q : State → Prop} (hmove : ∀ s s', Move s s' → Q s → P s → P s') (n : Nat) :
    ∀ s, (∀ s' ∈ passed n s, Q s') → P s → Gives P (run n s) := by
  induction n with
  | zero => exact fun s _ hs => gives_ok.mpr hs
  | succ n ih =>
    intro s hQ hs
    unfold run
    unfold passed at hQ
    split
    · exact gives_ok.mpr hs
    · next t rest hrest =>
      rw [hrest] at hQ
      dsimp only at hQ
      split
      · exact gives_ok.mpr hs
      · next ht =>
        rw [gives_bind]
        intro s' hs'
        rw [if_neg ht, hs'] at hQ
        obtain ⟨hQs, hQ⟩ := List.forall_mem_cons.mp hQ
        exact ih s' hQ (hmove s s' (step_move hrest s' hs') hQs hs)

theorem finish_gives (s : State) :
    Gives (fun p => s.outer = [] ∧ p = ⟨s.level.body, s.flags⟩) (finish s) := by
  unfold finish
  dsimp only
  split
  · exact gives_throw_bind
  · next houter =>
    split
    · exact gives_throw_bind
    · split
      · exact gives_throw_bind
      · split
        · exact gives_throw
        · exact gives_pure.mpr ⟨by simpa using houter, rfl⟩

end Reader

/-- Where reading a pattern starts. -/
def State.start (input : Input) : State :=
  { input, flags := { ascii := true }, level := { opening := .whole, start := 0, verbose := false } }

/-- The states from which reading a pattern makes its steps. -/
def visited (source : List Char) : List State :=
  match Input.ofChars source with
  | .ok input => Reader.passed input.rest.length (.start input)
  | .error _ => []

/-- What holds where reading starts, and is preserved by every move from a visited state, holds of the
state whose only level is the whole pattern. -/
theorem parse_induction {P Q : State → Prop} {source : List Char}
    (hmove : ∀ s s', Move s s' → Q s → P s → P s')
    (hstart : ∀ input : Input, input.rest = tokenize source → P (.start input))
    (hvisited : ∀ s ∈ visited source, Q s) :
    Gives (fun p => ∃ s, P s ∧ s.outer = [] ∧ p.regex = s.level.body) (parse source) := by
  unfold parse
  rw [gives_bind]
  intro input hinput
  dsimp only
  rw [gives_bind]
  rw [visited, hinput] at hvisited
  have hrest : input.rest = tokenize source := Input.settle_gives _ _ _ hinput
  refine (Reader.run_induction hmove _ _ hvisited (hstart input hrest)).mono fun s hs => ?_
  refine (Reader.finish_gives s).mono ?_
  rintro _ ⟨houter, rfl⟩
  exact ⟨s, hs, houter, rfl⟩

/-- A pattern has the expression and the flags that its source is read into. -/
theorem ofSource_gives (source : List Char) :
    Gives (fun p : Pattern => ∃ q, parse source = .ok q ∧ p.regex = q.regex ∧ p.flags = q.flags)
      (ofSource source) := by
  unfold ofSource
  rw [gives_bind]
  intro q hq
  dsimp only
  split
  · exact gives_throw
  · split
    · exact gives_throw_bind
    · exact gives_pure.mpr ⟨q, hq, rfl, rfl⟩

/-! ## Features of levels -/

namespace Level

/-- What the expressions of a level have inside them. -/
def features (l : Level) : List Feature :=
  (l.items ++ l.done).flatMap Regex.features

variable {x : Feature} {l : Level}

theorem mem_features : x ∈ l.features ↔
    (∃ r ∈ l.items, x ∈ r.features) ∨ ∃ r ∈ l.done, x ∈ r.features := by
  simp [features]

theorem mem_features_push {r : Regex} :
    x ∈ (l.push r).features ↔ x ∈ r.features ∨ x ∈ l.features := by
  simp [features, push]

theorem mem_features_current : x ∈ l.current.features ↔ ∃ r ∈ l.items, x ∈ r.features := by
  simp [current, Regex.mem_features_sequence]

theorem mem_features_split : x ∈ l.split.features ↔ x ∈ l.features := by
  simp [mem_features, split, mem_features_current]

theorem mem_features_body : x ∈ l.body.features ↔ x ∈ l.features := by
  simp [body, Regex.mem_features_choices, mem_features, mem_features_current, or_comm]

/-- A level that is closed has nothing inside it but what it had, and its own group. -/
theorem mem_features_closed {g : Groups} (hx : x ∈ (Reader.closed l g).1.features) :
    x ∈ l.features ∨ ∃ n, l.opening = .capture n ∧ x = .group n := by
  unfold Reader.closed at hx
  split at hx
  · exact Or.inl (mem_features_body.mp hx)
  · next n hn =>
    rcases List.mem_cons.mp hx with rfl | hx
    · exact Or.inr ⟨n, hn, rfl⟩
    · exact Or.inl (mem_features_body.mp hx)
  · exact Or.inl (mem_features_body.mp hx)
  · exact Or.inl (mem_features_body.mp hx)
  · exact Or.inl (mem_features_body.mp hx)
  · exact Or.inl (mem_features_body.mp hx)
  · refine Or.inl (mem_features.mpr ?_)
    rw [← mem_features_current]
    split at hx
    · exact Or.inl (by simpa [Regex.features] using hx)
    · next yes done hdone =>
      rcases List.mem_append.mp hx with hx | hx
      · exact Or.inr ⟨yes, hdone ▸ List.mem_cons_self, hx⟩
      · exact Or.inl hx

end Level

end AttributeLint.Pattern
