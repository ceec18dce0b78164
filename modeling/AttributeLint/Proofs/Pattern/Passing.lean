import AttributeLint.Pattern.Reader
import AttributeLint.Proofs.Pattern.Choices
import AttributeLint.Proofs.Pattern.Spelling
import AttributeLint.Proofs.Readers

/-!
# Passing over the parts of a pattern

The scan that spells out anchors and the reader have each their own idea of where brackets begin and
end.  For every part that the reader takes in one go the two agree: the scan enters the part outside
brackets and is outside brackets again behind it.  A class is passed from its opening bracket to its
closing one, and numbers, flags and names hold no bracket at all.

* `Outside`, `Flat`: what is left behind such a part, and behind one without brackets.
* `Bracket.Closes`: what is left behind a class.  Its closing bracket is the first one in it, unless
  another comes first of all.
* `Bracket.read_gives`, `Repeat.onLast_gives`, `Switches.read_outside`, `Reader.groupName_outside` and
  the others: what each function of the reader passes over.
-/

namespace AttributeLint.Pattern

/-! ## Passing over tokens -/

/-- What is left behind some tokens that the scan enters and leaves outside brackets; at the end of a
pattern it does not matter where the scan stands. -/
def Outside (before after : List Token) : Prop :=
  after = [] ∨ ∃ passed, before = passed ++ after ∧ passed.foldl Token.bracketed false = false

namespace Outside

variable {l m n : List Token}

theorem refl (l : List Token) : Outside l l :=
  Or.inr ⟨[], rfl, rfl⟩

theorem trans (h : Outside l m) (h' : Outside m n) : Outside l n := by
  rcases h' with rfl | ⟨more, rfl, hmore⟩
  · exact Or.inl rfl
  · rcases h with h | ⟨passed, rfl, hpassed⟩
    · exact Or.inl (List.append_eq_nil_iff.mp h).2
    · refine Or.inr ⟨passed ++ more, (List.append_assoc _ _ _).symm, ?_⟩
      rw [List.foldl_append, hpassed, hmore]

theorem clear (h : Outside l m) (hl : Clear false l) : Clear false m := by
  rcases h with rfl | ⟨passed, rfl, hpassed⟩
  · exact trivial
  · exact hpassed ▸ hl.behind

/-- Tokens without an opening bracket do not lead between brackets. -/
theorem of_flat {passed : List Token} (h : .plain '[' ∉ passed) (rest : List Token) :
    Outside (passed ++ rest) rest := by
  refine Or.inr ⟨passed, rfl, ?_⟩
  induction passed with
  | nil => rfl
  | cons t passed ih =>
    have ht : .plain '[' ≠ t := List.ne_of_not_mem_cons h
    have hp : .plain '[' ∉ passed := List.not_mem_of_not_mem_cons h
    have hb : t.bracketed false = false := by
      cases t with
      | plain c => exact beq_eq_false_iff_ne.mpr fun hc => ht (congrArg _ hc.symm)
      | escaped c => rfl
      | dangling => rfl
    rw [List.foldl_cons, hb]
    exact ih hp

theorem cons {t : Token} (ht : t ≠ .plain '[') (rest : List Token) : Outside (t :: rest) rest :=
  of_flat (fun h => ht (List.mem_singleton.mp h).symm) rest

/-- A class, from its opening to its closing bracket. -/
theorem of_class (passed rest : List Token) :
    Outside (.plain '[' :: passed ++ .plain ']' :: rest) rest := by
  refine Or.inr ⟨.plain '[' :: passed ++ [.plain ']'], by simp, ?_⟩
  rw [List.foldl_append]
  simp [Token.bracketed]

end Outside

/-- What is left behind some tokens of which none is a bracket. -/
def Flat (before after : List Token) : Prop :=
  ∃ passed, before = passed ++ after ∧ .plain '[' ∉ passed ∧ .plain ']' ∉ passed

theorem Flat.refl (l : List Token) : Flat l l :=
  ⟨[], rfl, List.not_mem_nil, List.not_mem_nil⟩

theorem Flat.outside {l m : List Token} (h : Flat l m) : Outside l m := by
  obtain ⟨passed, rfl, hopen, -⟩ := h
  exact .of_flat hopen m

namespace Input

theorem settle_gives (rest : List Token) (place : Nat) :
    Gives (fun i => i.rest = rest) (settle rest place) := by
  intro i h
  unfold settle at h
  split at h
  · cases h
  · cases h
    rfl

theorem next_gives (i : Input) :
    Gives (fun (t, j) => (t = none ∧ j = i ∧ i.rest = []) ∨ ∃ u, t = some u ∧ i.rest = u :: j.rest)
      i.next := by
  unfold next
  split
  · next h => exact gives_ok.mpr (Or.inl ⟨rfl, rfl, h⟩)
  · next t rest h =>
    rw [gives_bind]
    refine (settle_gives rest _).mono fun j hj => gives_ok.mpr (Or.inr ⟨t, rfl, ?_⟩)
    rw [h, hj]

theorem accept_gives (c : Char) (i : Input) :
    Gives (fun r => ∀ j, r = some j → i.rest = .plain c :: j.rest) (i.accept c) := by
  unfold accept
  split
  · exact gives_ok.mpr nofun
  · next t rest h =>
    split
    · next ht =>
      rw [gives_bind]
      refine (settle_gives rest _).mono fun j hj => gives_ok.mpr ?_
      rintro k hk
      cases hk
      rw [h, hj, ht]
    · exact gives_ok.mpr nofun

theorem takeWhile_gives (p : Char → Bool) (n : Nat) :
    ∀ i, Gives (fun (cs, j) => i.rest = cs.map .plain ++ j.rest ∧ ∀ c ∈ cs, p c = true)
      (takeWhile p n i) := by
  induction n with
  | zero => exact fun i => gives_ok.mpr ⟨rfl, nofun⟩
  | succ n ih =>
    intro i
    unfold takeWhile
    split
    · next c rest h =>
      split
      · next hc =>
        rw [gives_bind]
        refine (settle_gives rest _).mono fun j hj => ?_
        rw [gives_bind]
        refine (ih j).mono ?_
        rintro ⟨cs, k⟩ ⟨hcs, hp⟩
        refine gives_ok.mpr ⟨?_, List.forall_mem_cons.mpr ⟨hc, hp⟩⟩
        rw [h, ← hj, hcs, List.map_cons, List.cons_append]
      · exact gives_ok.mpr ⟨rfl, nofun⟩
    · exact gives_ok.mpr ⟨rfl, nofun⟩

theorem takeWhile_flat {p : Char → Bool} (hopen : p '[' = false) (hclose : p ']' = false) (n : Nat)
    (i : Input) : Gives (fun (_, j) => Flat i.rest j.rest) (takeWhile p n i) := by
  refine (takeWhile_gives p n i).mono ?_
  rintro ⟨cs, j⟩ ⟨hcs, hall⟩
  have hnot : ∀ {c : Char}, p c = false → .plain c ∉ cs.map Token.plain := by
    intro c hc hmem
    obtain ⟨d, hd, he⟩ := List.mem_map.mp hmem
    cases he
    rw [hall _ hd] at hc
    cases hc
  exact ⟨cs.map .plain, hcs, hnot hopen, hnot hclose⟩

theorem takeWhile_outside {p : Char → Bool} (hopen : p '[' = false) (hclose : p ']' = false) (n : Nat)
    (i : Input) : Gives (fun (_, j) => Outside i.rest j.rest) (takeWhile p n i) :=
  (takeWhile_flat hopen hclose n i).mono fun _ h => h.outside

theorem name_gives (what : String) (stop : Char) (i : Input) :
    Gives (fun (name, j) => ∃ ts, i.rest = ts ++ .plain stop :: j.rest ∧ name = ts.flatMap Token.chars)
      (i.name what stop) := by
  have hgo : ∀ (rest : List Token) (done : List Char) (place : Nat),
      Gives (fun (name, j) => ∃ ts, rest = ts ++ .plain stop :: j.rest ∧
        name = done ++ ts.flatMap Token.chars) (name.go what stop done rest place) := by
    intro rest
    induction rest with
    | nil =>
      intro done place
      unfold name.go
      split <;> exact gives_error
    | cons t rest ih =>
      intro done place
      unfold name.go
      rw [gives_bind]
      refine (settle_gives rest _).mono fun j hj => ?_
      split
      · next ht =>
        split
        · exact gives_error
        · exact gives_ok.mpr ⟨[], by rw [ht, hj]; rfl, by simp⟩
      · refine (ih (done ++ t.chars) _).mono ?_
        rintro ⟨name, k⟩ ⟨ts, hts, hname⟩
        exact ⟨t :: ts, by rw [hts]; rfl, by rw [hname]; simp⟩
  exact (hgo i.rest [] i.place).mono fun ⟨name, j⟩ h => by simpa using h

theorem skipPast_gives (c : Char) (i : Input) :
    Gives (fun r => ∀ j, r = some j →
      i.rest = i.rest.takeWhile (· ≠ .plain c) ++ .plain c :: j.rest) (i.skipPast c) := by
  have hgo : ∀ (rest : List Token) (place : Nat),
      Gives (fun r => ∀ j, r = some j →
        rest = rest.takeWhile (· ≠ .plain c) ++ .plain c :: j.rest) (skipPast.go c rest place) := by
    intro rest
    induction rest with
    | nil => exact fun place => gives_ok.mpr nofun
    | cons t rest ih =>
      intro place
      unfold skipPast.go
      rw [gives_bind]
      refine (settle_gives rest _).mono fun j hj => ?_
      split
      · next ht =>
        refine gives_ok.mpr ?_
        rintro k hk
        cases hk
        rw [ht, hj]
        simp
      · next ht =>
        refine (ih _).mono fun r hr k hk => ?_
        rw [List.takeWhile_cons_of_pos (by simpa using ht), List.cons_append]
        exact congrArg _ (hr k hk)
  exact hgo i.rest i.place

end Input

/-! ## Escapes and classes -/

namespace Escape

theorem hexNumber_flat (c : Char) (count : Nat) (i : Input) :
    Gives (fun (_, j) => Flat i.rest j.rest) (hexNumber c count i) := by
  unfold hexNumber
  rw [gives_bind]
  refine (Input.takeWhile_flat (by decide) (by decide) count i).mono ?_
  rintro ⟨digits, j⟩ hj
  dsimp only
  split
  · exact gives_throw_bind
  · split
    · exact gives_throw_bind
    · exact gives_pure.mpr hj

theorem named_gives (i : Input) : Gives (fun _ => False) (named i) := by
  unfold named
  rw [gives_bind]
  refine Gives.mono (P := fun _ => True) (fun _ _ => trivial) ?_
  rintro (_ | j) -
  · exact gives_throw
  · rw [gives_bind]
    exact fun _ _ => gives_throw

theorem number?_flat {c : Char} {i : Input} {read : Except Failure (Nat × Input)}
    (h : number? c i = some read) : Gives (fun (_, j) => Flat i.rest j.rest) read := by
  unfold number? at h
  split at h
  all_goals cases h
  · exact hexNumber_flat _ 2 i
  · exact hexNumber_flat _ 4 i
  · exact hexNumber_flat _ 8 i
  · exact (named_gives i).mono fun _ h => h.elim

theorem octal_flat (c : Char) (i : Input) :
    Gives (fun (_, j) => Flat i.rest j.rest) (octal c i) := by
  unfold octal
  rw [gives_bind]
  refine (Input.takeWhile_flat (by decide) (by decide) 2 i).mono ?_
  rintro ⟨digits, j⟩ hj
  dsimp only
  split
  · exact gives_throw_bind
  · exact gives_pure.mpr hj

theorem itself_flat (c : Char) (i : Input) :
    Gives (fun (_, j) => Flat i.rest j.rest) (itself c i) := by
  unfold itself
  split
  · exact gives_error
  · exact gives_ok.mpr (.refl _)

theorem inClass_flat (c : Char) (i : Input) :
    Gives (fun (_, j) => Flat i.rest j.rest) (inClass c i) := by
  unfold inClass
  split
  · exact gives_pure.mpr (.refl _)
  · split
    · exact gives_pure.mpr (.refl _)
    · exact gives_pure.mpr (.refl _)
    · next hread _ _ =>
      rw [gives_bind]
      exact (number?_flat hread).mono fun _ hj => gives_pure.mpr hj
    · dsimp only
      split
      · rw [gives_bind]
        exact (octal_flat c i).mono fun _ hj => gives_pure.mpr hj
      · rw [gives_bind]
        exact (itself_flat c i).mono fun _ hj => gives_pure.mpr hj

end Escape

namespace Bracket

theorem atom_flat (t : Token) (i : Input) :
    Gives (fun (_, j) => Flat i.rest j.rest) (atom t i) := by
  cases t with
  | plain c => exact gives_ok.mpr (.refl _)
  | escaped c => exact Escape.inClass_flat c i
  | dangling => exact gives_ok.mpr (.refl _)

/-- What is read of a class behind a member and a hyphen. -/
def rangeFrom (start n : Nat) (done : List ClassItem) (t : Token) (first : Atom) (i : Input) :
    Except Failure (List ClassItem × Input) := do
  match ← i.next with
  | (none, _) => throw (.at start .unterminatedClass)
  | (some u, i) =>
    if u = .plain ']' then return ((.code 0x2D :: itemOf first :: done).reverse, i)
    let (last, i) ← atom u i
    let item ← range t u first last i
    items start n (item :: done) i

/-- What is read of a class from a token on that has been read. -/
def memberFrom (start n : Nat) (done : List ClassItem) (t : Token) (i : Input) :
    Except Failure (List ClassItem × Input) := do
  if t = .plain ']' && !done.isEmpty then return (done.reverse, i)
  let (first, i) ← atom t i
  match ← i.accept '-' with
  | none => items start n (itemOf first :: done) i
  | some i => rangeFrom start n done t first i

/-- What is left of some tokens behind a closing bracket, which is the first one among them unless
another is let by. -/
def Closes (letBy : Bool) (before after : List Token) : Prop :=
  ∃ passed, before = passed ++ .plain ']' :: after ∧ (letBy = false → .plain ']' ∉ passed)

/-- Whether a closing bracket comes first. -/
def bracketFirst (ts : List Token) : Bool :=
  ts.head? == some (.plain ']')

namespace Closes

variable {letBy : Bool} {before rest after : List Token}

theorem behind (h : Closes letBy rest after) (passed : List Token) (hbefore : before = passed ++ rest)
    (hpassed : letBy = false → .plain ']' ∉ passed) : Closes letBy before after := by
  obtain ⟨more, rfl, hmore⟩ := h
  refine ⟨passed ++ more, by rw [hbefore, List.append_assoc], fun hl hmem => ?_⟩
  rcases List.mem_append.mp hmem with hmem | hmem
  · exact hpassed hl hmem
  · exact hmore hl hmem

theorem mono (h : Closes letBy before after) {letBy' : Bool} (hl : letBy = true → letBy' = true) :
    Closes letBy' before after := by
  obtain ⟨passed, hpassed, hnot⟩ := h
  refine ⟨passed, hpassed, fun hl' => hnot ?_⟩
  rw [Bool.eq_false_iff]
  exact fun hlet => Bool.false_ne_true (hl'.symm.trans (hl hlet))

end Closes

section Members

variable {start n : Nat}
  (hitems : ∀ done i, Gives (fun (_, j) => Closes (done.isEmpty && bracketFirst i.rest) i.rest j.rest)
    (items start n done i))
include hitems

theorem rangeFrom_gives (done : List ClassItem) (t : Token) (first : Atom) (i : Input) :
    Gives (fun (_, j) => Closes false i.rest j.rest) (rangeFrom start n done t first i) := by
  unfold rangeFrom
  rw [gives_bind]
  refine (Input.next_gives i).mono ?_
  rintro ⟨_, j⟩ (⟨rfl, -⟩ | ⟨u, rfl, hi⟩)
  · exact gives_throw
  dsimp only
  split
  · next hu => exact gives_pure.mpr ⟨[], hu ▸ hi, fun _ => List.not_mem_nil⟩
  next hu =>
  rw [gives_bind]
  refine (atom_flat u j).mono ?_
  rintro ⟨last, k⟩ ⟨passed, hj, -, hpassed⟩
  dsimp only at hj ⊢
  rw [gives_bind]
  intro item _
  refine (hitems (item :: done) k).mono fun x hx => ?_
  exact (hx.behind passed hj fun _ => hpassed).behind [u] hi
    fun _ hmem => hu (List.mem_singleton.mp hmem).symm

theorem memberFrom_gives (done : List ClassItem) (t : Token) (i : Input) :
    Gives (fun (_, j) => Closes (done.isEmpty && bracketFirst (t :: i.rest)) (t :: i.rest) j.rest)
      (memberFrom start n done t i) := by
  unfold memberFrom
  dsimp only
  split
  · next ht =>
    obtain ⟨rfl, -⟩ : t = .plain ']' ∧ _ := by simpa using ht
    exact gives_pure.mpr ⟨[], rfl, fun _ => List.not_mem_nil⟩
  next ht =>
  rw [gives_bind]
  refine (atom_flat t i).mono ?_
  rintro ⟨first, j⟩ ⟨passed, hj, -, hpassed⟩
  -- a closing bracket that is read as a member is the first token, and nothing has been read before
  have hbehind : ∀ {after : List Token}, Closes false j.rest after →
      Closes (done.isEmpty && bracketFirst (t :: i.rest)) (t :: i.rest) after := by
    intro after hcloses
    refine (hcloses.mono (by simp)).behind (t :: passed) (congrArg (t :: ·) hj) ?_
    intro hl hmem
    rcases List.mem_cons.mp hmem with rfl | hmem
    · have hempty : done.isEmpty = true := by simpa using ht
      have hsome : done.isEmpty = false := by simpa [bracketFirst] using hl
      exact Bool.false_ne_true (hsome.symm.trans hempty)
    · exact hpassed hmem
  dsimp only
  rw [gives_bind]
  refine (Input.accept_gives '-' j).mono ?_
  rintro (_ | k) hk
  · exact (hitems (itemOf first :: done) j).mono fun x hx => hbehind hx
  · refine (rangeFrom_gives hitems done t first k).mono fun x hx => hbehind ?_
    exact hx.behind [.plain '-'] (hk k rfl) fun _ => by decide

end Members

/-- The members of a class go up to a closing bracket.  Where there is none before them, one that comes
first is let by. -/
theorem items_gives (start n : Nat) :
    ∀ (done : List ClassItem) (i : Input),
      Gives (fun (_, j) => Closes (done.isEmpty && bracketFirst i.rest) i.rest j.rest)
        (items start n done i) := by
  induction n with
  | zero => exact fun _ _ => gives_error
  | succ n ih =>
    intro done i
    unfold items
    rw [gives_bind]
    refine (Input.next_gives i).mono ?_
    rintro ⟨_, j⟩ (⟨rfl, -⟩ | ⟨t, rfl, hi⟩)
    · exact gives_throw
    rw [hi]
    exact memberFrom_gives ih done t j

/-- Whether a class, behind its opening bracket, begins with a closing bracket, be it negated or not. -/
def bracketLeads (ts : List Token) : Bool :=
  bracketFirst ts || ts.head? == some (.plain '^') && bracketFirst ts.tail

/-- A class behind its opening bracket and the sign that negates it. -/
def members (start : Nat) (negated : Bool) (i : Input) : Except Failure (Regex × Input) := do
  let (found, i) ← items start (i.rest.length + 1) [] i
  return (classOf negated found, i)

theorem members_gives (start : Nat) (negated : Bool) (i : Input) :
    Gives (fun (r, j) => r.isPlain = true ∧ r.features = [] ∧
      Closes (bracketFirst i.rest) i.rest j.rest) (members start negated i) := by
  have hclass : ∀ found, (classOf negated found).isPlain = true ∧
      (classOf negated found).features = [] := by
    intro found
    unfold classOf
    split <;> exact ⟨rfl, rfl⟩
  unfold members
  rw [gives_bind]
  refine (items_gives start _ [] i).mono ?_
  rintro ⟨found, j⟩ hj
  exact gives_pure.mpr ⟨(hclass found).1, (hclass found).2, hj⟩

theorem read_gives (start : Nat) (i : Input) :
    Gives (fun (r, j) => r.isPlain = true ∧ r.features = [] ∧
      Closes (bracketLeads i.rest) i.rest j.rest) (read start i) := by
  unfold read
  rw [gives_bind]
  refine (Input.accept_gives '^' i).mono ?_
  rintro (_ | j) hj
  · refine (members_gives start false i).mono ?_
    rintro ⟨r, k⟩ ⟨hplain, hfeatures, hcloses⟩
    exact ⟨hplain, hfeatures, hcloses.mono fun h => by simp [bracketLeads, h]⟩
  · refine Gives.mono (members_gives start true j) ?_
    rintro ⟨r, k⟩ ⟨hplain, hfeatures, hcloses⟩
    have hi := hj j rfl
    refine ⟨hplain, hfeatures, Closes.behind ?_ [.plain '^'] hi fun _ => by decide⟩
    exact hcloses.mono fun h => by simp [bracketLeads, hi, h]

end Bracket

/-! ## Repetition and flags -/

namespace Repeat

/-- What is read of braces behind their numbers: the closing brace, which makes them a count. -/
def closing (here : Nat) (low high : List Char) (i : Input) :
    Except Failure (Option (Count × Input)) := do
  match ← i.accept '\x7d' with
  | none => return none
  | some i =>
    let least := (← number? low).getD 0
    let most ← number? high
    match most with
    | some m => if m < least then throw (.at here .leastAboveMost)
    | none => pure ()
    return some (⟨least, most⟩, i)

theorem closing_outside (here : Nat) (low high : List Char) {l : List Token} {i : Input}
    (hi : Outside l i.rest) :
    Gives (fun r => ∀ count j, r = some (count, j) → Outside l j.rest) (closing here low high i) := by
  unfold closing
  rw [gives_bind]
  refine (Input.accept_gives _ i).mono ?_
  rintro (_ | j) hj
  · exact gives_pure.mpr (by rintro _ _ ⟨⟩)
  have hlj : Outside l j.rest := hi.trans (hj j rfl ▸ Outside.cons (by decide) _)
  dsimp only
  rw [gives_bind]
  intro least _
  rw [gives_bind]
  rintro (_ | most) _
  · refine gives_pure.mpr ?_
    rintro count _ h
    cases h
    exact hlj
  · dsimp only
    split
    · exact gives_throw_bind
    · refine gives_pure.mpr ?_
      rintro count _ h
      cases h
      exact hlj

theorem braces?_outside (i : Input) :
    Gives (fun r => ∀ count j, r = some (count, j) → Outside i.rest j.rest) (braces? i) := by
  unfold braces?
  dsimp only
  split
  · exact gives_pure.mpr (by rintro _ _ ⟨⟩)
  rw [gives_bind]
  refine (Input.takeWhile_outside (by decide) (by decide) _ i).mono ?_
  rintro ⟨low, j⟩ hj
  dsimp only at hj ⊢
  rw [gives_bind]
  refine (Input.accept_gives _ j).mono ?_
  rintro (_ | k) hk
  · dsimp only
    rw [gives_bind]
    exact gives_pure.mpr (closing_outside i.place low low hj)
  · have hik : Outside i.rest k.rest := hj.trans (hk k rfl ▸ Outside.cons (by decide) _)
    dsimp only
    rw [gives_bind]
    refine (Input.takeWhile_outside (by decide) (by decide) _ k).mono ?_
    rintro ⟨high, m⟩ hm
    exact closing_outside i.place low high (hik.trans hm)

theorem count?_outside (c : Char) (i : Input) :
    Gives (fun r => ∀ count j, r = some (count, j) → Outside i.rest j.rest) (count? c i) := by
  unfold count?
  split
  any_goals
    refine gives_ok.mpr ?_
    rintro count _ h
    cases h
    exact .refl _
  exact braces?_outside i

theorem greed_outside (i : Input) : Gives (fun (_, j) => Outside i.rest j.rest) (greed i) := by
  unfold greed
  rw [gives_bind]
  refine (Input.accept_gives _ i).mono ?_
  rintro (_ | j) hj
  · dsimp only
    rw [gives_bind]
    refine (Input.accept_gives _ i).mono ?_
    rintro (_ | k) hk
    · exact gives_pure.mpr (.refl _)
    · exact gives_pure.mpr (hk k rfl ▸ Outside.cons (by decide) _)
  · exact gives_pure.mpr (hj j rfl ▸ Outside.cons (by decide) _)

/-- A repetition takes the place of the last item, which is neither an anchor nor a repetition. -/
theorem onLast_gives (place : Nat) (count : Count) (items : List Regex) (i : Input) :
    Gives (fun (new, j) => Outside i.rest j.rest ∧ ∃ g r rest, items = r :: rest ∧
      new = .iterate g count.least count.most r.bare :: rest) (onLast place count items i) := by
  unfold onLast
  split
  · exact gives_error
  · exact gives_error
  · exact gives_error
  · rw [gives_bind]
    refine (greed_outside i).mono ?_
    rintro ⟨g, j⟩ hj
    exact gives_pure.mpr ⟨hj, g, _, _, rfl, rfl⟩

end Repeat

namespace Switches

theorem ne_bracket_of_isFlag {c : Char} (h : isFlag c = true) :
    Token.plain c ≠ .plain '[' := by
  rintro ⟨⟩
  exact absurd h (by decide)

theorem ons_outside (n : Nat) : ∀ (on : Flags) (c : Char) (i : Input),
    Gives (fun (_, _, j) => Outside i.rest j.rest) (ons n on c i) := by
  induction n with
  | zero => exact fun _ _ _ => gives_error
  | succ n ih =>
    intro on c i
    unfold ons
    rw [gives_bind]
    intro on _
    rw [gives_bind]
    refine (Input.next_gives i).mono ?_
    rintro ⟨t, j⟩ (⟨rfl, -⟩ | ⟨u, rfl, hi⟩)
    · exact gives_throw
    dsimp only
    split
    · next d =>
      split
      · next hd =>
        refine gives_pure.mpr ?_
        rw [hi]
        refine Outside.cons ?_ _
        rintro ⟨⟩
        exact absurd hd (by decide)
      · split
        · next hd =>
          refine (ih on d j).mono ?_
          rintro ⟨_, _, k⟩ hk
          rw [hi]
          exact (Outside.cons (ne_bracket_of_isFlag hd) _).trans hk
        · exact gives_throw
    · exact gives_throw

theorem offs_outside (n : Nat) : ∀ (off : Flags) (c : Char) (i : Input),
    Gives (fun (_, j) => Outside i.rest j.rest) (offs n off c i) := by
  induction n with
  | zero => exact fun _ _ _ => gives_error
  | succ n ih =>
    intro off c i
    unfold offs
    rw [gives_bind]
    intro off _
    rw [gives_bind]
    refine (Input.next_gives i).mono ?_
    rintro ⟨t, j⟩ (⟨rfl, -⟩ | ⟨u, rfl, hi⟩)
    · exact gives_throw
    dsimp only
    split
    · next d =>
      split
      · next hd =>
        refine gives_pure.mpr ?_
        rw [hi]
        refine Outside.cons ?_ _
        rintro ⟨⟩
        exact absurd hd (by decide)
      · split
        · next hd =>
          refine (ih off d j).mono ?_
          rintro ⟨_, k⟩ hk
          rw [hi]
          exact (Outside.cons (ne_bracket_of_isFlag hd) _).trans hk
        · exact gives_throw
    · exact gives_throw

theorem behindHyphen_outside (i : Input) :
    Gives (fun (_, j) => Outside i.rest j.rest) (behindHyphen i) := by
  unfold behindHyphen
  rw [gives_bind]
  refine (Input.next_gives i).mono ?_
  rintro ⟨t, j⟩ (⟨rfl, -⟩ | ⟨u, rfl, hi⟩)
  · exact gives_throw
  dsimp only
  split
  · next d =>
    split
    · next hd =>
      refine (offs_outside _ _ d j).mono ?_
      rintro ⟨_, k⟩ hk
      rw [hi]
      exact (Outside.cons (ne_bracket_of_isFlag hd) _).trans hk
    · exact gives_throw
  · exact gives_throw

/-- The flags of a group, checked against one another. -/
def settled (on off : Flags) (i : Input) : Except Failure (Scope × Input) := do
  if off.template then throw (.at (i.place - 1) .wholeFlagOff)
  if on.meets off then throw (.at (i.place - 1) .flagOnAndOff)
  return (.group on off, i)

/-- What is read behind the letters that switch on, by the character that ends them. -/
def scopeOf (on : Flags) (stop : Char) (i : Input) : Except Failure (Scope × Input) := do
  if stop == ')' then return (.whole on, i)
  if on.template then throw (.at (i.place - 1) .wholeFlagOn)
  let (off, i) ← if stop == '-' then behindHyphen i else pure ({}, i)
  settled on off i

theorem settled_outside (on off : Flags) {l : List Token} {i : Input} (hi : Outside l i.rest) :
    Gives (fun (_, j) => Outside l j.rest) (settled on off i) := by
  unfold settled
  dsimp only
  split
  · exact gives_throw_bind
  · split
    · exact gives_throw_bind
    · exact gives_pure.mpr hi

theorem scopeOf_outside (on : Flags) (stop : Char) {l : List Token} {i : Input}
    (hi : Outside l i.rest) : Gives (fun (_, j) => Outside l j.rest) (scopeOf on stop i) := by
  unfold scopeOf
  split
  · exact gives_pure.mpr hi
  dsimp only
  split
  · exact gives_throw_bind
  split
  · rw [gives_bind]
    refine (behindHyphen_outside i).mono ?_
    rintro ⟨off, j⟩ hj
    exact settled_outside on off (hi.trans hj)
  · exact settled_outside on {} hi

theorem read_outside (c : Char) (i : Input) :
    Gives (fun (_, j) => Outside i.rest j.rest) (read c i) := by
  unfold read
  dsimp only
  split
  · exact scopeOf_outside {} c (.refl _)
  · rw [gives_bind]
    refine (ons_outside _ _ c i).mono ?_
    rintro ⟨on, stop, j⟩ hj
    exact scopeOf_outside on stop hj

end Switches

/-! ## Names -/

/-- Whether a character can occur in the name of a group, or in the text of a number. -/
def nameable (c : Char) : Bool :=
  Text.startsIdentifier c || Text.continuesIdentifier c || Text.isBlank c ||
    (Text.digitValue? c).isSome || c == '-' || c == '+'

theorem not_nameable_bracket : nameable '[' = false := by decide +kernel

theorem nameable_of_isIdentifier {name : List Char} (h : Text.isIdentifier name = true) :
    ∀ c ∈ name, nameable c = true := by
  cases name with
  | nil => nofun
  | cons c rest =>
    obtain ⟨hc, hrest⟩ := Bool.and_eq_true_iff.mp h
    refine List.forall_mem_cons.mpr ⟨by simp [nameable, hc], fun d hd => ?_⟩
    simp [nameable, List.all_eq_true.mp hrest d hd]

theorem nameable_of_separated {text : List Char} {digits : List Nat}
    (h : Integer.separated text = some digits) : ∀ c ∈ text, nameable c = true := by
  fun_induction Integer.separated text generalizing digits with
  | case1 => cases h
  | case2 => cases h
  | case3 c d hd =>
    exact List.forall_mem_cons.mpr ⟨by simp [nameable, hd], nofun⟩
  | case4 c d hd more ih =>
    obtain ⟨rest, hrest, -⟩ := Option.map_eq_some_iff.mp h
    refine List.forall_mem_cons.mpr ⟨by simp [nameable, hd], List.forall_mem_cons.mpr ⟨?_, ih hrest⟩⟩
    decide +kernel
  | case5 c d hd more _ _ ih =>
    obtain ⟨rest, hrest, -⟩ := Option.map_eq_some_iff.mp h
    exact List.forall_mem_cons.mpr ⟨by simp [nameable, hd], ih hrest⟩

theorem nameable_of_magnitude {text : List Char} {n : Nat}
    (h : Integer.magnitude? text = some n) : ∀ c ∈ text, nameable c = true := by
  unfold Integer.magnitude? at h
  split at h
  · next hdigits => exact nameable_of_separated hdigits
  · cases h

theorem nameable_of_ofText {text : List Char} {n : Int} (h : Integer.ofText? text = some n) :
    ∀ c ∈ text, nameable c = true := by
  have hblank : ∀ (l : List Char), ∀ c ∈ l, c ∉ l.dropWhile Text.isBlank → nameable c = true := by
    intro l c hc hnot
    rw [← List.takeWhile_append_dropWhile (p := Text.isBlank) (l := l)] at hc
    rcases List.mem_append.mp hc with hc | hc
    · simp [nameable, List.all_eq_true.mp List.all_takeWhile c hc]
    · exact absurd hc hnot
  have hstripped : ∀ c ∈ Integer.stripped text, nameable c = true := by
    unfold Integer.ofText? at h
    split at h
    · next rest hs =>
      obtain ⟨_, hm, -⟩ := Option.map_eq_some_iff.mp h
      obtain ⟨m, hm, -⟩ := Option.bind_eq_some_iff.mp hm
      rw [hs]
      exact List.forall_mem_cons.mpr ⟨by decide +kernel, nameable_of_magnitude hm⟩
    · next rest hs =>
      obtain ⟨_, hm, -⟩ := Option.map_eq_some_iff.mp h
      obtain ⟨m, hm, -⟩ := Option.bind_eq_some_iff.mp hm
      rw [hs]
      exact List.forall_mem_cons.mpr ⟨by decide +kernel, nameable_of_magnitude hm⟩
    · obtain ⟨_, hm, -⟩ := Option.map_eq_some_iff.mp h
      obtain ⟨m, hm, -⟩ := Option.bind_eq_some_iff.mp hm
      exact nameable_of_magnitude hm
  intro c hc
  by_cases hleft : c ∈ text.dropWhile Text.isBlank
  · by_cases hright : c ∈ (text.dropWhile Text.isBlank).reverse.dropWhile Text.isBlank
    · exact hstripped c (List.mem_reverse.mpr hright)
    · exact hblank _ c (List.mem_reverse.mpr hleft) hright
  · exact hblank _ c hc hleft

/-- A name of such characters and the character that ends it hold no bracket. -/
theorem Outside.of_name {ts : List Token} {stop : Char} (rest : List Token)
    (h : ∀ c ∈ ts.flatMap Token.chars, nameable c = true) (hstop : stop ≠ '[') :
    Outside (ts ++ .plain stop :: rest) rest := by
  rw [List.append_cons]
  refine Outside.of_flat ?_ rest
  rw [List.mem_append, List.mem_singleton]
  rintro (hmem | he)
  · have hc := h '[' (List.mem_flatMap.mpr ⟨_, hmem, List.mem_singleton.mpr rfl⟩)
    rw [not_nameable_bracket] at hc
    cases hc
  · cases he
    exact hstop rfl

namespace Reader

theorem groupName_outside {stop : Char} (hstop : stop ≠ '[') (i : Input) :
    Gives (fun (_, _, j) => Outside i.rest j.rest) (groupName stop i) := by
  unfold groupName
  rw [gives_bind]
  refine (Input.name_gives _ stop i).mono ?_
  rintro ⟨name, j⟩ ⟨ts, hts, rfl⟩
  dsimp only
  split
  · exact gives_throw_bind
  · next hname =>
    refine gives_pure.mpr ?_
    rw [hts]
    exact Outside.of_name _ (nameable_of_isIdentifier (by simpa using hname)) hstop

theorem asked_gives (g : Groups) (name : List Char) (place : Nat) :
    Gives (fun (_, g') => (∀ c ∈ name, nameable c = true) ∧ g'.widths = g.widths)
      (asked g name place) := by
  unfold asked
  split
  · next hname =>
    split
    · exact gives_throw
    · exact gives_pure.mpr ⟨nameable_of_isIdentifier hname, rfl⟩
  · split
    · exact gives_throw
    · next group _ hname =>
      split
      · exact gives_throw_bind
      · refine gives_pure.mpr ⟨nameable_of_ofText hname, ?_⟩
        unfold Groups.ask
        split <;> rfl
    · exact gives_throw

end Reader

end AttributeLint.Pattern
