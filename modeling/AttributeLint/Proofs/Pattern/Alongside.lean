import AttributeLint.Proofs.Pattern.Passing

/-!
# Reading two spellings side by side

A pattern and its spelling, which differ token by token only in how an end is written, are read alike,
part by part: each function of the reader succeeds on both or fails on both.  Where a part has no room
for an end it fails on both, since neither a dollar sign nor a backslash is a digit, a flag or a letter
of a name.  A class is the exception.  It may hold a dollar sign, while the escape that stands for it is
refused between brackets; so the spelling of a class can be read exactly if it is the class itself.

* `Input.Along`: the two unread parts.  Places are not compared, since one spelling is longer.
* `Paired`, `Passed`: results that are related, with inputs behind them that go along; and such results
  behind the same text.
* `Repeat.count?_together`, `Switches.read_together`, `Reader.groupName_together` and the others: what
  each function of the reader makes of two such inputs.
* `Guarded`, `Bracket.read_guarded`: a class is read on both sides exactly if its text is the same.
-/

namespace AttributeLint.Pattern

/-- The unread parts of a pattern and of its spelling. -/
def Input.Along (i j : Input) : Prop :=
  Spelled i.rest j.rest

/-- Inputs that go along, behind the same text of two inputs. -/
def Input.Abreast (i j k l : Input) : Prop :=
  k.Along l ∧ ∃ text, i.rest = text ++ k.rest ∧ j.rest = text ++ l.rest

/-- Related results, with inputs behind them that go along. -/
def Paired {α β : Type} (R : α → β → Prop) (x : α × Input) (y : β × Input) : Prop :=
  R x.1 y.1 ∧ x.2.Along y.2

/-- The same results behind the same text of two inputs. -/
def Passed {α : Type} (i j : Input) (x y : α × Input) : Prop :=
  x.1 = y.1 ∧ i.Abreast j x.2 y.2

theorem Respelled.plain_iff {t u : Token} (h : Respelled t u) {c : Char} (hc : c ≠ '$') :
    t = .plain c ↔ u = .plain c := by
  rcases h with rfl | ⟨rfl, rfl⟩
  · exact Iff.rfl
  · refine iff_of_false ?_ nofun
    rintro ⟨⟩
    exact hc rfl

namespace Input

variable {i j k l : Input}

theorem Along.abreast (h : i.Along j) : i.Abreast j i j :=
  ⟨h, [], rfl, rfl⟩

theorem Along.length_eq (h : i.Along j) : i.rest.length = j.rest.length :=
  Spelled.length_eq h

theorem Abreast.trans {m n : Input} (h : i.Abreast j k l) (h' : k.Abreast l m n) :
    i.Abreast j m n := by
  obtain ⟨-, text, hi, hj⟩ := h
  obtain ⟨hmn, more, hk, hl⟩ := h'
  refine ⟨hmn, text ++ more, ?_, ?_⟩
  · rw [hi, hk, List.append_assoc]
  · rw [hj, hl, List.append_assoc]

theorem settle_together {ts us : List Token} (h : Spelled ts us) (p q : Nat) :
    Together Along (settle ts p) (settle us q) := by
  rcases h.cases with ⟨rfl, rfl⟩ | ⟨t, u, ts, us, rfl, rfl, htu, -⟩
  · exact together_ok h
  · rcases htu with rfl | ⟨rfl, rfl⟩
    · cases u with
      | dangling => exact together_error
      | _ => exact together_ok h
    · exact together_ok h

theorem next_together (h : i.Along j) :
    Together (Paired (Option.Rel Respelled)) i.next j.next := by
  unfold next
  rcases Spelled.cases h with ⟨hi, hj⟩ | ⟨t, u, ts, us, hi, hj, htu, hrest⟩
  · rw [hi, hj]
    exact together_ok ⟨.none, h⟩
  · rw [hi, hj]
    exact together_bind (settle_together hrest _ _) fun k l hkl => together_ok ⟨.some htu, hkl⟩

/-- Stepping over a token that both inputs begin with. -/
theorem next_same {t : Token} {ts us : List Token} (hi : i.rest = t :: ts) (hj : j.rest = t :: us)
    (h : Spelled ts us) :
    Together (fun x y => ∃ k l, x = (some t, k) ∧ y = (some t, l) ∧ i.Abreast j k l) i.next j.next := by
  unfold next
  rw [hi, hj]
  refine together_bind ((settle_together h _ _).and (settle_gives ts _) (settle_gives us _)) ?_
  rintro k l ⟨hkl, rfl, rfl⟩
  exact together_ok ⟨k, l, rfl, rfl, hkl, [t], hi, hj⟩

theorem accept_together (h : i.Along j) {c : Char} (hc : c ≠ '$') :
    Together (Option.Rel (i.Abreast j)) (i.accept c) (j.accept c) := by
  have haccept : Together (Option.Rel Along) (i.accept c) (j.accept c) := by
    unfold accept
    rcases Spelled.cases h with ⟨hi, hj⟩ | ⟨t, u, ts, us, hi, hj, htu, hrest⟩
    · rw [hi, hj]
      exact together_ok .none
    · rw [hi, hj]
      dsimp only
      simp only [htu.plain_iff hc]
      split
      · exact together_bind (settle_together hrest _ _) fun k l hkl => together_ok (.some hkl)
      · exact together_ok .none
  refine (haccept.and (accept_gives c i) (accept_gives c j)).mono ?_
  rintro _ _ ⟨hkl | _, hi, hj⟩
  · exact .some ⟨hkl, [.plain c], hi _ rfl, hj _ rfl⟩
  · exact .none

theorem startsWith_eq (h : i.Along j) {c : Char} (hc : c ≠ '$') : i.startsWith c = j.startsWith c := by
  unfold startsWith
  rcases Spelled.cases h with ⟨hi, hj⟩ | ⟨t, u, ts, us, hi, hj, htu, -⟩
  · rw [hi, hj]
  · rw [hi, hj, Bool.eq_iff_iff]
    simpa using htu.plain_iff hc

theorem takeWhile_together {p : Char → Bool} (hp : p '$' = false) (n : Nat) {i j : Input}
    (h : i.Along j) : Together (Passed i j) (takeWhile p n i) (takeWhile p n j) := by
  have hgo : ∀ {i j : Input}, i.Along j →
      Together (Paired Eq) (takeWhile p n i) (takeWhile p n j) := by
    induction n with
    | zero => exact fun h => together_ok ⟨rfl, h⟩
    | succ n ih =>
      intro i j h
      unfold takeWhile
      rcases Spelled.cases h with ⟨hi, hj⟩ | ⟨t, u, ts, us, hi, hj, htu, hrest⟩
      · rw [hi, hj]
        exact together_ok ⟨rfl, h⟩
      · rw [hi, hj]
        rcases htu with rfl | ⟨rfl, rfl⟩
        · cases u with
          | plain c =>
            dsimp only
            split
            · refine together_bind (settle_together hrest _ _) fun k l hkl => ?_
              refine together_bind (ih hkl) ?_
              rintro ⟨cs, _⟩ ⟨ds, _⟩ ⟨rfl, hrest⟩
              exact together_ok ⟨rfl, hrest⟩
            · exact together_ok ⟨rfl, h⟩
          | _ => exact together_ok ⟨rfl, h⟩
        · dsimp only
          rw [hp]
          exact together_ok ⟨rfl, h⟩
  refine ((hgo h).and (takeWhile_gives p n i) (takeWhile_gives p n j)).mono ?_
  rintro ⟨cs, k⟩ ⟨_, l⟩ ⟨⟨rfl, hkl⟩, ⟨hi, -⟩, hj, -⟩
  exact ⟨rfl, hkl, cs.map .plain, hi, hj⟩

/-- Names are the same, or one has a dollar sign and the other the backslash of its spelling. -/
def Renamed (cs ds : List Char) : Prop :=
  cs = ds ∨ '$' ∈ cs ∧ '\\' ∈ ds

theorem Renamed.isEmpty_eq {cs ds : List Char} (h : Renamed cs ds) : cs.isEmpty = ds.isEmpty := by
  rcases h with rfl | ⟨hc, hd⟩
  · rfl
  · rw [List.isEmpty_eq_false_iff_exists_mem.mpr ⟨_, hc⟩,
      List.isEmpty_eq_false_iff_exists_mem.mpr ⟨_, hd⟩]

/-- A further token keeps the names the same, or parts them where an end is written. -/
theorem Renamed.append {cs ds : List Char} (h : Renamed cs ds) {t u : Token} (htu : Respelled t u) :
    Renamed (cs ++ t.chars) (ds ++ u.chars) := by
  rcases h with rfl | ⟨hc, hd⟩
  · rcases htu with rfl | ⟨rfl, rfl⟩
    · exact Or.inl rfl
    · exact Or.inr ⟨List.mem_append_right _ (by decide), List.mem_append_right _ (by decide)⟩
  · exact Or.inr ⟨List.mem_append_left _ hc, List.mem_append_left _ hd⟩

theorem name_together (h : i.Along j) (what : String) {stop : Char} (hstop : stop ≠ '$') :
    Together (Paired Renamed) (i.name what stop) (j.name what stop) := by
  have hgo : ∀ {ts us : List Token}, Spelled ts us →
      ∀ (cs ds : List Char) (p q : Nat), Renamed cs ds →
        Together (Paired Renamed) (name.go what stop cs ts p) (name.go what stop ds us q) := by
    intro ts us hrest
    refine Spelled.induct (motive := fun ts us => ∀ (cs ds : List Char) (p q : Nat), Renamed cs ds →
      Together (Paired Renamed) (name.go what stop cs ts p) (name.go what stop ds us q)) ?_ ?_ hrest
    · intro cs ds p q _
      unfold name.go
      split <;> split <;> exact together_error
    · intro t u ts us htu hrest ih cs ds p q hname
      unfold name.go
      refine together_bind (settle_together hrest _ _) fun k l hkl => ?_
      simp only [htu.plain_iff hstop, hname.isEmpty_eq]
      split
      · split
        · exact together_error
        · exact together_ok ⟨hname, hkl⟩
      · exact ih _ _ _ _ (hname.append htu)
  exact hgo h [] [] i.place j.place (Or.inl rfl)

theorem skipPast_together (h : i.Along j) {c : Char} (hc : c ≠ '$') :
    Together (Option.Rel Along) (i.skipPast c) (j.skipPast c) := by
  have hgo : ∀ {ts us : List Token}, Spelled ts us → ∀ p q : Nat,
      Together (Option.Rel Along) (skipPast.go c ts p) (skipPast.go c us q) := by
    intro ts us hrest
    refine Spelled.induct (motive := fun ts us => ∀ p q : Nat,
      Together (Option.Rel Along) (skipPast.go c ts p) (skipPast.go c us q)) ?_ ?_ hrest
    · exact fun p q => together_ok .none
    · intro t u ts us htu hrest ih p q
      unfold skipPast.go
      refine together_bind (settle_together hrest _ _) fun k l hkl => ?_
      simp only [htu.plain_iff hc]
      split
      · exact together_ok (.some hkl)
      · exact ih _ _
  exact hgo h i.place j.place

end Input

variable {i j : Input}

/-! ## Escapes -/

namespace Escape

theorem hexNumber_together (h : i.Along j) (c : Char) (count : Nat) :
    Together (Passed i j) (hexNumber c count i) (hexNumber c count j) := by
  unfold hexNumber
  refine together_bind (Input.takeWhile_together (by decide) count h) ?_
  rintro ⟨digits, k⟩ ⟨_, l⟩ ⟨rfl, hkl⟩
  dsimp only
  split
  · exact together_error
  · split
    · exact together_error
    · exact together_pure ⟨rfl, hkl⟩

theorem number?_together (h : i.Along j) (c : Char) :
    Option.Rel (Together (Passed i j)) (number? c i) (number? c j) := by
  unfold number?
  split
  · exact .some (hexNumber_together h _ 2)
  · exact .some (hexNumber_together h _ 4)
  · exact .some (hexNumber_together h _ 8)
  · exact .some (together_of_fail (named_gives i) (named_gives j))
  · exact .none

theorem octal_together (h : i.Along j) (c : Char) : Together (Passed i j) (octal c i) (octal c j) := by
  unfold octal
  refine together_bind (Input.takeWhile_together (by decide) 2 h) ?_
  rintro ⟨digits, k⟩ ⟨_, l⟩ ⟨rfl, hkl⟩
  dsimp only
  split
  · exact together_error
  · exact together_pure ⟨rfl, hkl⟩

theorem itself_together (h : i.Along j) (c : Char) :
    Together (Passed i j) (itself c i) (itself c j) := by
  unfold itself
  split
  · exact together_error
  · exact together_ok ⟨rfl, h.abreast⟩

theorem inClass_together (h : i.Along j) (c : Char) :
    Together (Passed i j) (inClass c i) (inClass c j) := by
  have hcode : ∀ x y : Nat × Input, Passed i j x y →
      Together (Passed i j) (pure (Atom.code x.1, x.2) : Except Failure (Atom × Input))
        (pure (Atom.code y.1, y.2)) :=
    fun x y hxy => together_pure ⟨congrArg Atom.code hxy.1, hxy.2⟩
  have hnumber := number?_together h c
  unfold inClass
  split
  · exact together_pure ⟨rfl, h.abreast⟩
  · generalize number? c i = x at hnumber
    generalize number? c j = y at hnumber
    cases control? c with
    | some n => exact together_pure ⟨rfl, h.abreast⟩
    | none =>
      cases category? c with
      | some atom => exact together_pure ⟨rfl, h.abreast⟩
      | none =>
        cases hnumber with
        | some hread => exact together_bind hread hcode
        | none =>
          dsimp only
          split
          · exact together_bind (octal_together h c) hcode
          · exact together_bind (itself_together h c) hcode

/-- The escape for the end of the text is refused between brackets. -/
theorem inClass_textEnd (i : Input) : Gives (fun _ => False) (inClass 'Z' i) :=
  nofun

end Escape

/-! ## Classes -/

/-- The second of two inputs is read like the first exactly if the two go on with the same tokens up to
where the first is then left. -/
structure Guarded {α : Type} (i j : Input) (x y : Except Failure (α × Input)) : Prop where
  suffix : ∀ a, x = .ok a → ∃ text, i.rest = text ++ a.2.rest
  forth : ∀ a text rest, x = .ok a → i.rest = text ++ a.2.rest → j.rest = text ++ rest →
    ∃ b, y = .ok b
  back : ∀ b, y = .ok b → ∃ a, x = .ok a ∧ Passed i j a b

namespace Guarded

variable {α β : Type} {i' j' : Input} {x y : Except Failure (α × Input)}

theorem of_together (h : Together (Passed i j) x y) : Guarded i j x y where
  suffix a ha := by
    obtain ⟨b, -, -, -, text, hi, -⟩ := h.forth a ha
    exact ⟨text, hi⟩
  forth a _ _ ha _ _ := by
    obtain ⟨b, hb, -⟩ := h.forth a ha
    exact ⟨b, hb⟩
  back := h.back

theorem bind {γ δ : Type} {R : γ → δ → Prop} {u : Except Failure γ} {v : Except Failure δ}
    {f : γ → Except Failure (α × Input)} {g : δ → Except Failure (α × Input)} (h : Together R u v)
    (hf : ∀ c d, R c d → Guarded i j (f c) (g d)) : Guarded i j (u >>= f) (v >>= g) where
  suffix a ha := by
    obtain ⟨c, hc, ha⟩ := bind_eq_ok_iff.mp ha
    obtain ⟨d, -, hcd⟩ := h.forth c hc
    exact (hf c d hcd).suffix a ha
  forth a text rest ha hi hj := by
    obtain ⟨c, hc, ha⟩ := bind_eq_ok_iff.mp ha
    obtain ⟨d, hd, hcd⟩ := h.forth c hc
    obtain ⟨b, hb⟩ := (hf c d hcd).forth a text rest ha hi hj
    exact ⟨b, bind_eq_ok_iff.mpr ⟨d, hd, hb⟩⟩
  back b hb := by
    obtain ⟨d, hd, hb⟩ := bind_eq_ok_iff.mp hb
    obtain ⟨c, hc, hcd⟩ := h.back d hd
    obtain ⟨a, ha, hab⟩ := (hf c d hcd).back b hb
    exact ⟨a, bind_eq_ok_iff.mpr ⟨c, hc, ha⟩, hab⟩

theorem map (h : Guarded i j x y) (f : α → β) :
    Guarded i j (x >>= fun p => pure (f p.1, p.2)) (y >>= fun p => pure (f p.1, p.2)) where
  suffix _ hb := by
    obtain ⟨a, ha, hb⟩ := bind_eq_ok_iff.mp hb
    cases hb
    exact h.suffix a ha
  forth _ text rest hb hi hj := by
    obtain ⟨a, ha, hb⟩ := bind_eq_ok_iff.mp hb
    cases hb
    obtain ⟨b, hb⟩ := h.forth a text rest ha hi hj
    exact ⟨_, bind_eq_ok_iff.mpr ⟨b, hb, rfl⟩⟩
  back _ hb := by
    obtain ⟨b, hy, hb⟩ := bind_eq_ok_iff.mp hb
    cases hb
    obtain ⟨a, ha, hab⟩ := h.back b hy
    exact ⟨_, bind_eq_ok_iff.mpr ⟨a, ha, rfl⟩, congrArg f hab.1, hab.2⟩

/-- What is read further on is guarded from where the same text begins. -/
theorem behind (h : Guarded i' j' x y) (hij : i.Abreast j i' j') : Guarded i j x y := by
  obtain ⟨text, hi, hj⟩ := hij.2
  constructor
  · intro a ha
    obtain ⟨more, hmore⟩ := h.suffix a ha
    exact ⟨text ++ more, by rw [hi, hmore, List.append_assoc]⟩
  · intro a whole rest ha hi' hj'
    obtain ⟨more, hmore⟩ := h.suffix a ha
    obtain rfl : text ++ more = whole := by
      rw [hi, hmore, ← List.append_assoc] at hi'
      exact List.append_cancel_right hi'
    rw [hj, List.append_assoc] at hj'
    exact h.forth a more rest ha hmore (List.append_cancel_left hj')
  · intro b hb
    obtain ⟨a, ha, hab⟩ := h.back b hb
    exact ⟨a, ha, hab.1, hij.trans hab.2⟩

/-- Where the one goes on with a dollar sign and the other with its spelling, the text is not the
same. -/
theorem of_respelled {ts us : List Token} {letBy : Bool} (hi : i.rest = .plain '$' :: ts)
    (hj : j.rest = .escaped 'Z' :: us)
    (hx : Gives (fun a => Bracket.Closes letBy i.rest a.2.rest) x)
    (hy : Gives (fun _ => False) y) : Guarded i j x y where
  suffix a ha := by
    obtain ⟨text, htext, -⟩ := hx a ha
    exact ⟨text ++ [.plain ']'], by rw [htext, List.append_assoc]; rfl⟩
  forth a text rest ha hi' hj' := by
    obtain ⟨passed, hpassed, -⟩ := hx a ha
    cases text with
    | nil =>
      have hlength := congrArg List.length (hpassed.symm.trans hi')
      rw [List.length_append, List.length_cons, List.nil_append] at hlength
      omega
    | cons t text =>
      have ht := (List.cons.inj (hi.symm.trans hi')).1
      have hu := (List.cons.inj (hj.symm.trans hj')).1
      cases ht.trans hu.symm
  back b hb := (hy b hb).elim

end Guarded

namespace Bracket

theorem atom_together (h : i.Along j) (t : Token) :
    Together (Passed i j) (atom t i) (atom t j) := by
  cases t with
  | plain c => exact together_ok ⟨rfl, h.abreast⟩
  | escaped c => exact Escape.inClass_together h c
  | dangling => exact together_ok ⟨rfl, h.abreast⟩

theorem range_together (t u : Token) (first last : Atom) (i j : Input) :
    Together Eq (range t u first last i) (range t u first last j) := by
  unfold range
  dsimp only
  split
  · split
    · exact together_error
    · exact together_ok rfl
  · exact together_error

theorem atom_textEnd (i : Input) : Gives (fun _ => False) (atom (.escaped 'Z') i) :=
  Escape.inClass_textEnd i

theorem rangeFrom_textEnd {us : List Token} (hj : j.rest = .escaped 'Z' :: us) (start n : Nat)
    (done : List ClassItem) (t : Token) (first : Atom) :
    Gives (fun _ => False) (rangeFrom start n done t first j) := by
  unfold rangeFrom
  rw [gives_bind]
  refine (Input.next_gives j).mono ?_
  rintro ⟨_, l⟩ (⟨rfl, -⟩ | ⟨u, rfl, hu⟩)
  · exact gives_throw
  obtain rfl : .escaped 'Z' = u := (List.cons.inj (hj.symm.trans hu)).1
  dsimp only
  rw [if_neg (by decide), gives_bind]
  exact (atom_textEnd l).mono fun _ h => h.elim

theorem items_textEnd {us : List Token} (hj : j.rest = .escaped 'Z' :: us) (start n : Nat)
    (done : List ClassItem) : Gives (fun _ => False) (items start n done j) := by
  cases n with
  | zero => exact gives_error
  | succ n =>
    unfold items
    rw [gives_bind]
    refine (Input.next_gives j).mono ?_
    rintro ⟨_, l⟩ (⟨rfl, -⟩ | ⟨u, rfl, hu⟩)
    · exact gives_throw
    obtain rfl : .escaped 'Z' = u := (List.cons.inj (hj.symm.trans hu)).1
    dsimp only
    rw [if_neg (by simp), gives_bind]
    exact (atom_textEnd l).mono fun _ h => h.elim

section Members

variable {start start' n : Nat}
  (hitems : ∀ (done : List ClassItem) {i j : Input}, i.Along j →
    Guarded i j (items start n done i) (items start' n done j))
include hitems

theorem rangeFrom_guarded (h : i.Along j) (done : List ClassItem) (t : Token) (first : Atom) :
    Guarded i j (rangeFrom start n done t first i) (rangeFrom start' n done t first j) := by
  rcases Spelled.cases h with ⟨hi, hj⟩ | ⟨u, v, ts, us, hi, hj, rfl | ⟨rfl, rfl⟩, hrest⟩
  · unfold rangeFrom Input.next
    rw [hi, hj]
    exact .of_together together_error
  · unfold rangeFrom
    refine Guarded.bind (Input.next_same hi hj hrest) ?_
    rintro _ _ ⟨k, l, rfl, rfl, hkl⟩
    refine Guarded.behind ?_ hkl
    dsimp only
    split
    · exact .of_together (together_pure ⟨rfl, hkl.1.abreast⟩)
    refine Guarded.bind (atom_together hkl.1 v) ?_
    rintro ⟨last, k'⟩ ⟨_, l'⟩ ⟨rfl, hkl'⟩
    refine Guarded.behind ?_ hkl'
    refine Guarded.bind (range_together t v first last k' l') ?_
    rintro item _ rfl
    exact hitems _ hkl'.1
  · exact .of_respelled hi hj (rangeFrom_gives (items_gives start n) done t first i)
      (rangeFrom_textEnd hj start' n done t first)

theorem memberFrom_guarded (h : i.Along j) (done : List ClassItem) (t : Token) :
    Guarded i j (memberFrom start n done t i) (memberFrom start' n done t j) := by
  unfold memberFrom
  dsimp only
  split
  · exact .of_together (together_pure ⟨rfl, h.abreast⟩)
  refine Guarded.bind (atom_together h t) ?_
  rintro ⟨first, k⟩ ⟨_, l⟩ ⟨rfl, hkl⟩
  refine Guarded.behind ?_ hkl
  refine Guarded.bind (Input.accept_together hkl.1 (by decide)) ?_
  rintro _ _ (hkl' | _)
  · exact (rangeFrom_guarded hitems hkl'.1 done t first).behind hkl'
  · exact hitems _ hkl.1

end Members

theorem items_guarded (start start' n : Nat) : ∀ (done : List ClassItem) {i j : Input}, i.Along j →
    Guarded i j (items start n done i) (items start' n done j) := by
  induction n with
  | zero => exact fun _ _ _ _ => .of_together together_error
  | succ n ih =>
    intro done i j h
    rcases Spelled.cases h with ⟨hi, hj⟩ | ⟨t, u, ts, us, hi, hj, rfl | ⟨rfl, rfl⟩, hrest⟩
    · unfold items Input.next
      rw [hi, hj]
      exact .of_together together_error
    · unfold items
      refine Guarded.bind (Input.next_same hi hj hrest) ?_
      rintro _ _ ⟨k, l, rfl, rfl, hkl⟩
      exact (memberFrom_guarded ih hkl.1 done u).behind hkl
    · exact .of_respelled hi hj (items_gives start (n + 1) done i) (items_textEnd hj _ _ done)

theorem members_guarded (h : i.Along j) (start start' : Nat) (negated : Bool) :
    Guarded i j (members start negated i) (members start' negated j) := by
  unfold members
  rw [h.length_eq]
  exact (items_guarded start start' _ [] h).map (classOf negated)

/-- **A class is read on both sides exactly if its text is the same.** -/
theorem read_guarded (h : i.Along j) (start start' : Nat) :
    Guarded i j (read start i) (read start' j) := by
  unfold read
  refine Guarded.bind (Input.accept_together h (by decide)) ?_
  rintro _ _ (hkl | _)
  · exact (members_guarded hkl.1 start start' true).behind hkl
  · exact members_guarded h start start' false

end Bracket

/-! ## Repetitions -/

namespace Repeat

theorem closing_together (h : i.Along j) (here here' : Nat) (low high : List Char) :
    Together (Option.Rel (Paired Eq)) (closing here low high i) (closing here' low high j) := by
  unfold closing
  refine together_bind (Input.accept_together h (by decide)) ?_
  rintro _ _ (h' | _)
  swap
  · exact together_pure .none
  refine together_bind (together_self (number? low)) ?_
  rintro least _ rfl
  refine together_bind (together_self (number? high)) ?_
  rintro most _ rfl
  dsimp only
  split
  · split
    · exact together_error
    · exact together_pure (.some ⟨rfl, h'.1⟩)
  · exact together_pure (.some ⟨rfl, h'.1⟩)

theorem braces?_together (h : i.Along j) :
    Together (Option.Rel (Paired Eq)) (braces? i) (braces? j) := by
  unfold braces?
  dsimp only
  rw [Input.startsWith_eq h (by decide)]
  split
  · exact together_pure .none
  rw [h.length_eq]
  refine together_bind (Input.takeWhile_together (by decide) _ h) ?_
  rintro ⟨low, k⟩ ⟨_, l⟩ ⟨rfl, hkl, -⟩
  refine together_bind (Input.accept_together hkl (by decide)) ?_
  rintro _ _ (h' | _)
  · dsimp only
    rw [Input.Along.length_eq h'.1]
    refine together_bind (Input.takeWhile_together (by decide) _ h'.1) ?_
    rintro ⟨high, m⟩ ⟨_, n⟩ ⟨rfl, hmn, -⟩
    exact closing_together hmn i.place j.place low high
  · exact closing_together hkl i.place j.place low low

theorem count?_together (h : i.Along j) (c : Char) :
    Together (Option.Rel (Paired Eq)) (count? c i) (count? c j) := by
  unfold count?
  split
  · exact together_ok (.some ⟨rfl, h⟩)
  · exact together_ok (.some ⟨rfl, h⟩)
  · exact together_ok (.some ⟨rfl, h⟩)
  · exact braces?_together h

theorem greed_together (h : i.Along j) : Together (Paired Eq) (greed i) (greed j) := by
  unfold greed
  refine together_bind (Input.accept_together h (by decide)) ?_
  rintro _ _ (h' | _)
  · exact together_pure ⟨rfl, h'.1⟩
  · refine together_bind (Input.accept_together h (by decide)) ?_
    rintro _ _ (h' | _)
    · exact together_pure ⟨rfl, h'.1⟩
    · exact together_pure ⟨rfl, h⟩

end Repeat

/-! ## Flags -/

namespace Switches

theorem switchOn_together (on : Flags) (c : Char) (i j : Input) :
    Together Eq (switchOn on c i) (switchOn on c j) := by
  unfold switchOn
  split
  · exact together_error
  · dsimp only
    split
    · exact together_error
    · exact together_ok rfl

theorem switchOff_together (off : Flags) (c : Char) (i j : Input) :
    Together Eq (switchOff off c i) (switchOff off c j) := by
  unfold switchOff
  split
  · exact together_error
  · split
    · exact together_error
    · exact together_ok rfl

theorem ons_together (n : Nat) : ∀ (on : Flags) (c : Char) {i j : Input}, i.Along j →
    Together (fun x y => x.1 = y.1 ∧ Paired Eq x.2 y.2) (ons n on c i) (ons n on c j) := by
  induction n with
  | zero => exact fun _ _ _ _ _ => together_error
  | succ n ih =>
    intro on c i j h
    unfold ons
    refine together_bind (switchOn_together on c i j) ?_
    rintro on _ rfl
    refine together_bind (Input.next_together h) ?_
    rintro ⟨_, i⟩ ⟨_, j⟩ ⟨htu | _, h⟩
    swap
    · exact together_error
    rcases htu with rfl | ⟨rfl, rfl⟩
    · dsimp only
      split
      · split
        · exact together_pure ⟨rfl, rfl, h⟩
        · split
          · exact ih _ _ h
          · exact together_error
      · exact together_error
    · exact together_error

theorem offs_together (n : Nat) : ∀ (off : Flags) (c : Char) {i j : Input}, i.Along j →
    Together (Paired Eq) (offs n off c i) (offs n off c j) := by
  induction n with
  | zero => exact fun _ _ _ _ _ => together_error
  | succ n ih =>
    intro off c i j h
    unfold offs
    refine together_bind (switchOff_together off c i j) ?_
    rintro off _ rfl
    refine together_bind (Input.next_together h) ?_
    rintro ⟨_, i⟩ ⟨_, j⟩ ⟨htu | _, h⟩
    swap
    · exact together_error
    rcases htu with rfl | ⟨rfl, rfl⟩
    · dsimp only
      split
      · split
        · exact together_pure ⟨rfl, h⟩
        · split
          · exact ih _ _ h
          · exact together_error
      · exact together_error
    · exact together_error

theorem behindHyphen_together (h : i.Along j) :
    Together (Paired Eq) (behindHyphen i) (behindHyphen j) := by
  unfold behindHyphen
  refine together_bind (Input.next_together h) ?_
  rintro ⟨_, i⟩ ⟨_, j⟩ ⟨htu | _, h⟩
  swap
  · exact together_error
  rcases htu with rfl | ⟨rfl, rfl⟩
  · dsimp only
    split
    · split
      · rw [Input.Along.length_eq h]
        exact offs_together _ _ _ h
      · exact together_error
    · exact together_error
  · exact together_error

theorem settled_together (h : i.Along j) (on off : Flags) :
    Together (Paired Eq) (settled on off i) (settled on off j) := by
  unfold settled
  dsimp only
  split
  · exact together_error
  · split
    · exact together_error
    · exact together_pure ⟨rfl, h⟩

theorem scopeOf_together (h : i.Along j) (on : Flags) (stop : Char) :
    Together (Paired Eq) (scopeOf on stop i) (scopeOf on stop j) := by
  unfold scopeOf
  split
  · exact together_pure ⟨rfl, h⟩
  dsimp only
  split
  · exact together_error
  split
  · refine together_bind (behindHyphen_together h) ?_
    rintro ⟨off, k⟩ ⟨_, l⟩ ⟨rfl, hkl⟩
    exact settled_together hkl on off
  · exact settled_together h on {}

theorem read_together (h : i.Along j) (c : Char) : Together (Paired Eq) (read c i) (read c j) := by
  unfold read
  dsimp only
  split
  · exact scopeOf_together h {} c
  · rw [h.length_eq]
    refine together_bind (ons_together _ {} c h) ?_
    rintro ⟨on, stop, k⟩ ⟨_, _, l⟩ ⟨rfl, rfl, hkl⟩
    exact scopeOf_together hkl on stop

end Switches

/-! ## Names -/

namespace Reader

theorem not_nameable_dollar : nameable '$' = false := by decide +kernel

theorem not_nameable_backslash : nameable '\\' = false := by decide +kernel

/-- Names that are not the same are both none. -/
theorem eq_or_not_nameable {cs ds : List Char} (h : Input.Renamed cs ds) :
    cs = ds ∨ (¬ ∀ c ∈ cs, nameable c = true) ∧ ¬ ∀ c ∈ ds, nameable c = true := by
  rcases h with h | ⟨hc, hd⟩
  · exact Or.inl h
  · refine Or.inr ⟨fun hcs => ?_, fun hds => ?_⟩
    · exact absurd ((hcs _ hc).symm.trans not_nameable_dollar) nofun
    · exact absurd ((hds _ hd).symm.trans not_nameable_backslash) nofun

theorem groupName_together (h : i.Along j) {stop : Char} (hstop : stop ≠ '$') :
    Together (fun x y => x.1 = y.1 ∧ x.2.2.Along y.2.2) (groupName stop i) (groupName stop j) := by
  have hnone : ∀ {cs : List Char}, (¬ ∀ c ∈ cs, nameable c = true) →
      (!Text.isIdentifier cs) = true := by
    intro cs hcs
    rw [Bool.not_eq_true', Bool.eq_false_iff]
    exact fun hid => hcs (nameable_of_isIdentifier hid)
  unfold groupName
  refine together_bind (Input.name_together h _ hstop) ?_
  rintro ⟨cs, i⟩ ⟨ds, j⟩ ⟨hname, h⟩
  dsimp only at hname ⊢
  rcases eq_or_not_nameable hname with rfl | ⟨hcs, hds⟩
  · split
    · exact together_error
    · exact together_pure ⟨rfl, h⟩
  · rw [if_pos (hnone hcs), if_pos (hnone hds)]
    exact together_error

end Reader

end AttributeLint.Pattern
