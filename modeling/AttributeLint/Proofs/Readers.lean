/-!
# Readers that can fail

A reader is put together from smaller ones that it runs one after another.  These lemmas take it
apart again: it succeeds if every part does, and it fails if a part fails after all those before it
have succeeded.  `Gives` is what holds of a result if there is one.  `Together` says of two readers that
both succeed, with related results, or both fail, and `TogetherIf` that one of them needs a condition
beside to succeed.  Each goes through a reader part by part.
-/

namespace AttributeLint

variable {ε ε' α β : Type}

theorem bind_eq_ok_iff {x : Except ε α} {f : α → Except ε β} {b : β} :
    x >>= f = .ok b ↔ ∃ a, x = .ok a ∧ f a = .ok b := by
  cases x with
  | error e => exact ⟨nofun, fun ⟨_, h, _⟩ => nomatch h⟩
  | ok a =>
    constructor
    · intro h; exact ⟨a, rfl, h⟩
    · rintro ⟨a', h, hb⟩; cases h; exact hb

theorem bind_eq_error_iff {x : Except ε α} {f : α → Except ε β} {e : ε} :
    x >>= f = .error e ↔ x = .error e ∨ ∃ a, x = .ok a ∧ f a = .error e := by
  cases x with
  | error e' =>
    constructor
    · intro h; exact Or.inl (congrArg _ (Except.error.inj h))
    · rintro (h | ⟨_, h, _⟩)
      · cases h; rfl
      · cases h
  | ok a =>
    constructor
    · intro h; exact Or.inr ⟨a, rfl, h⟩
    · rintro (h | ⟨a', h, hb⟩)
      · cases h
      · cases h; exact hb

theorem map_eq_ok_iff {x : Except ε α} {f : α → β} {b : β} :
    f <$> x = .ok b ↔ ∃ a, x = .ok a ∧ f a = b := by
  cases x with
  | error e => exact ⟨nofun, fun ⟨_, h, _⟩ => nomatch h⟩
  | ok a =>
    constructor
    · intro h; exact ⟨a, rfl, Except.ok.inj h⟩
    · rintro ⟨a', h, rfl⟩; cases h; rfl

theorem map_eq_error_iff {x : Except ε α} {f : α → β} {e : ε} :
    f <$> x = .error e ↔ x = .error e := by
  cases x with
  | error e' =>
    exact ⟨fun h => congrArg _ (Except.error.inj h), fun h => congrArg _ (Except.error.inj h)⟩
  | ok a => exact ⟨nofun, nofun⟩

theorem mapError_eq_ok_iff {x : Except ε α} {g : ε → ε'} {a : α} :
    x.mapError g = .ok a ↔ x = .ok a := by
  cases x with
  | error e => exact ⟨nofun, nofun⟩
  | ok b => exact ⟨fun h => congrArg _ (Except.ok.inj h), fun h => congrArg _ (Except.ok.inj h)⟩

theorem mapError_eq_error_iff {x : Except ε α} {g : ε → ε'} {e : ε'} :
    x.mapError g = .error e ↔ ∃ e₀, x = .error e₀ ∧ g e₀ = e := by
  cases x with
  | error e₀ =>
    constructor
    · intro h; exact ⟨e₀, rfl, Except.error.inj h⟩
    · rintro ⟨e₁, h, rfl⟩; cases h; rfl
  | ok b => exact ⟨nofun, fun ⟨_, h, _⟩ => nomatch h⟩

theorem not_ok_iff {x : Except ε α} : (¬ ∃ a, x = .ok a) ↔ ∃ e, x = .error e := by
  cases x with
  | error e => exact ⟨fun _ => ⟨e, rfl⟩, fun _ ⟨_, h⟩ => nomatch h⟩
  | ok a => exact ⟨fun h => absurd ⟨a, rfl⟩ h, fun ⟨_, h⟩ => nomatch h⟩

/-! ## What a reader gives -/

/-- What a reader gives satisfies a property, if it gives anything. -/
def Gives (P : α → Prop) (x : Except ε α) : Prop :=
  ∀ a, x = .ok a → P a

/-- What two readers give is related, if both give something. -/
def Both (R : α → β → Prop) (x : Except ε α) (y : Except ε β) : Prop :=
  ∀ a b, x = .ok a → y = .ok b → R a b

/-- Two readers both succeed, with related results, or both fail. -/
structure Together (R : α → β → Prop) (x : Except ε α) (y : Except ε β) : Prop where
  forth : ∀ a, x = .ok a → ∃ b, y = .ok b ∧ R a b
  back : ∀ b, y = .ok b → ∃ a, x = .ok a ∧ R a b

/-- The second of two readers succeeds exactly if the first does and a condition holds, and then their
results are related. -/
structure TogetherIf (c : Prop) (R : α → β → Prop) (x : Except ε α) (y : Except ε β) : Prop where
  forth : c → ∀ a, x = .ok a → ∃ b, y = .ok b ∧ R a b
  back : ∀ b, y = .ok b → c ∧ ∃ a, x = .ok a ∧ R a b

section Gives

variable {P Q : α → Prop}

theorem gives_ok {a : α} : Gives P (.ok a : Except ε α) ↔ P a :=
  ⟨fun h => h a rfl, fun h _ he => Except.ok.inj he ▸ h⟩

theorem gives_pure {a : α} : Gives P (pure a : Except ε α) ↔ P a :=
  gives_ok

theorem gives_error {e : ε} : Gives P (.error e : Except ε α) :=
  nofun

theorem gives_throw {e : ε} : Gives P (throw e : Except ε α) :=
  nofun

theorem gives_bind {P : β → Prop} {x : Except ε α} {f : α → Except ε β} :
    Gives P (x >>= f) ↔ Gives (fun a => Gives P (f a)) x := by
  cases x with
  | error e => exact ⟨nofun, nofun⟩
  | ok a => exact ⟨fun h _ he => Except.ok.inj he ▸ h, fun h => h a rfl⟩

theorem gives_throw_bind {P : β → Prop} {e : ε} {f : α → Except ε β} :
    Gives P (throw e >>= f) :=
  nofun

theorem Gives.mono {x : Except ε α} (h : Gives P x) (hpq : ∀ a, P a → Q a) : Gives Q x :=
  fun a ha => hpq a (h a ha)

end Gives

section Together

variable {γ δ : Type} {R R' : α → β → Prop} {S : γ → δ → Prop} {x : Except ε α} {y : Except ε β}
  {f : α → Except ε γ} {g : β → Except ε δ}

theorem together_ok {a : α} {b : β} (h : R a b) : Together R (.ok a : Except ε α) (.ok b) where
  forth _ ha := ⟨b, rfl, Except.ok.inj ha ▸ h⟩
  back _ hb := ⟨a, rfl, Except.ok.inj hb ▸ h⟩

theorem together_pure {a : α} {b : β} (h : R a b) : Together R (pure a : Except ε α) (pure b) :=
  together_ok h

theorem together_error {e e' : ε} : Together R (.error e : Except ε α) (.error e') :=
  ⟨nofun, nofun⟩

/-- Readers of which neither succeeds. -/
theorem together_of_fail (hx : Gives (fun _ => False) x) (hy : Gives (fun _ => False) y) :
    Together R x y :=
  ⟨fun a ha => (hx a ha).elim, fun b hb => (hy b hb).elim⟩

theorem together_self (x : Except ε α) : Together Eq x x :=
  ⟨fun a ha => ⟨a, ha, rfl⟩, fun b hb => ⟨b, hb, rfl⟩⟩

theorem together_bind (h : Together R x y) (hf : ∀ a b, R a b → Together S (f a) (g b)) :
    Together S (x >>= f) (y >>= g) where
  forth c hc := by
    obtain ⟨a, ha, hc⟩ := bind_eq_ok_iff.mp hc
    obtain ⟨b, hb, hab⟩ := h.forth a ha
    obtain ⟨d, hd, hcd⟩ := (hf a b hab).forth c hc
    exact ⟨d, bind_eq_ok_iff.mpr ⟨b, hb, hd⟩, hcd⟩
  back d hd := by
    obtain ⟨b, hb, hd⟩ := bind_eq_ok_iff.mp hd
    obtain ⟨a, ha, hab⟩ := h.back b hb
    obtain ⟨c, hc, hcd⟩ := (hf a b hab).back d hd
    exact ⟨c, bind_eq_ok_iff.mpr ⟨a, ha, hc⟩, hcd⟩

theorem Together.mono (h : Together R x y) (hR : ∀ a b, R a b → R' a b) : Together R' x y where
  forth a ha := (h.forth a ha).imp fun b hb => ⟨hb.1, hR a b hb.2⟩
  back b hb := (h.back b hb).imp fun a ha => ⟨ha.1, hR a b ha.2⟩

/-- What each of two readers gives, beside how the results are related. -/
theorem Together.and {P : α → Prop} {Q : β → Prop} (h : Together R x y) (hx : Gives P x)
    (hy : Gives Q y) : Together (fun a b => R a b ∧ P a ∧ Q b) x y where
  forth a ha := by
    obtain ⟨b, hb, hab⟩ := h.forth a ha
    exact ⟨b, hb, hab, hx a ha, hy b hb⟩
  back b hb := by
    obtain ⟨a, ha, hab⟩ := h.back b hb
    exact ⟨a, ha, hab, hx a ha, hy b hb⟩

theorem Together.when {c : Prop} (h : Together R x y) (hc : c) : TogetherIf c R x y :=
  ⟨fun _ => h.forth, fun b hb => ⟨hc, h.back b hb⟩⟩

theorem TogetherIf.bind {c : Prop} {d : α → Prop} (h : TogetherIf c R x y)
    (hf : ∀ a b, R a b → TogetherIf (d a) S (f a) (g b)) :
    TogetherIf (c ∧ ∀ a, x = .ok a → d a) S (x >>= f) (y >>= g) where
  forth hcd z hz := by
    obtain ⟨a, ha, hz⟩ := bind_eq_ok_iff.mp hz
    obtain ⟨b, hb, hab⟩ := h.forth hcd.1 a ha
    obtain ⟨w, hw, hzw⟩ := (hf a b hab).forth (hcd.2 a ha) z hz
    exact ⟨w, bind_eq_ok_iff.mpr ⟨b, hb, hw⟩, hzw⟩
  back w hw := by
    obtain ⟨b, hb, hw⟩ := bind_eq_ok_iff.mp hw
    obtain ⟨hc, a, ha, hab⟩ := h.back b hb
    obtain ⟨hd, z, hz, hzw⟩ := (hf a b hab).back w hw
    refine ⟨⟨hc, fun a' ha' => ?_⟩, z, bind_eq_ok_iff.mpr ⟨a, ha, hz⟩, hzw⟩
    rwa [Except.ok.inj (ha'.symm.trans ha)]

/-- A condition may be told in another way where the first reader succeeds. -/
theorem TogetherIf.congr {c c' : Prop} (h : TogetherIf c R x y) (hc : ∀ a, x = .ok a → (c ↔ c')) :
    TogetherIf c' R x y where
  forth hc' a ha := h.forth ((hc a ha).mpr hc') a ha
  back b hb := by
    obtain ⟨hcond, a, ha, hab⟩ := h.back b hb
    exact ⟨(hc a ha).mp hcond, a, ha, hab⟩

theorem TogetherIf.both {c : Prop} (h : TogetherIf c R x y) : Both R x y := by
  intro a b ha hb
  obtain ⟨-, a', ha', hab⟩ := h.back b hb
  rwa [Except.ok.inj (ha.symm.trans ha')]

end Together

end AttributeLint
