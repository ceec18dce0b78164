import AttributeLint.Files.Tree
import AttributeLint.Proofs.Json.Scalars
import AttributeLint.Proofs.Syntax.Akin
import Mathlib

/-!
# What is written is plain

Whatever data is written, in whatever layout, its text holds line feeds and printable ASCII characters and
nothing else (`plain_writeAt`).  So it is the same text in any encoding that extends ASCII, and it keeps
its line breaks where they are unified (`decode_plain`, `unifyBreaks_plain`).
-/

namespace AttributeLint.Json

/-! ## Strings -/

/-- The characters of what is written: line feeds and printable ASCII. -/
def Plain (c : Char) : Prop :=
  c = '\n' ∨ 0x20 ≤ c.toNat ∧ c.toNat ≤ 0x7E

instance (c : Char) : Decidable (Plain c) :=
  inferInstanceAs (Decidable (_ ∨ _))

theorem Plain.lt {c : Char} (h : Plain c) : c.toNat < 0x80 := by
  rcases h with rfl | h
  · decide
  · omega

theorem plain_hexDigit : ∀ n < 16, Plain (Text.hexDigit n) := by
  decide

theorem plain_hex (width : Nat) : ∀ n, ∀ c ∈ Text.hex width n, Plain c := by
  induction width with
  | zero => exact fun _ c hc => absurd hc List.not_mem_nil
  | succ width ih =>
    intro n c hc
    rw [Text.hex, List.mem_append, List.mem_singleton] at hc
    rcases hc with hc | rfl
    · exact ih _ c hc
    · exact plain_hexDigit _ (Nat.mod_lt n (by decide))

theorem plain_unitEscape (c : Char) : ∀ x ∈ unitEscape c, Plain x := by
  have hunit : ∀ n, ∀ x ∈ '\\' :: 'u' :: Text.hex 4 n, Plain x := by
    intro n
    exact List.forall_mem_cons.mpr ⟨by decide, List.forall_mem_cons.mpr ⟨by decide, plain_hex 4 n⟩⟩
  rw [unitEscape]
  split
  · exact hunit _
  · exact List.forall_mem_append.mpr ⟨hunit _, hunit _⟩

theorem Spells.plain {c : Char} {text : List Char} (h : Spells c text) : ∀ x ∈ text, Plain x := by
  cases h with
  | @letter e h =>
    have he : Plain e := by
      unfold shortEscape? at h
      split at h
      all_goals first | decide | cases h
    exact List.forall_mem_cons.mpr ⟨by decide, List.forall_mem_singleton.mpr he⟩
  | self _ _ hlow hhigh => exact List.forall_mem_singleton.mpr (.inr ⟨hlow, hhigh⟩)
  | units => exact plain_unitEscape c

theorem plain_writeString (s : String) : ∀ x ∈ writeString s, Plain x := by
  intro x hx
  rw [writeString, List.mem_append, List.mem_cons, List.mem_flatMap, List.mem_singleton] at hx
  rcases hx with (rfl | ⟨c, -, hc⟩) | rfl
  · decide
  · exact (spells_escapeChar c).plain x hc
  · decide

/-! ## Numbers -/

theorem plain_of_isDigit {c : Char} (hc : c.isDigit = true) : Plain c := by
  have hrange : 0x30 ≤ c.toNat ∧ c.toNat ≤ 0x39 := Char.isDigit_iff_toNat.mp hc
  exact .inr (by omega)

theorem plain_toDigits (n : Nat) : ∀ c ∈ Nat.toDigits 10 n, Plain c :=
  fun c hc => plain_of_isDigit (isDigit_toDigits c hc)

theorem plain_int (n : Int) : ∀ c ∈ (toString n).toList, Plain c := by
  rw [toList_toString]
  split
  · exact List.forall_mem_cons.mpr ⟨by decide, plain_toDigits _⟩
  · exact plain_toDigits _

theorem plain_decimal (d : Binary64.Decimal) : ∀ c ∈ d.text.toList, Plain c := by
  have hdigits := plain_toDigits d.digits
  have hzeros : ∀ n, ∀ c ∈ List.replicate n '0', Plain c := by
    intro n c hc
    rw [(List.mem_replicate.mp hc).2]
    decide
  unfold Binary64.Decimal.text
  dsimp only
  generalize Nat.toDigits 10 d.digits = digits at hdigits ⊢
  split
  · split
    · simp only [String.toList_ofList, List.forall_mem_append, List.forall_mem_cons]
      exact ⟨⟨by decide, by decide, hzeros _⟩, hdigits⟩
    · split
      · simp only [String.toList_ofList, List.forall_mem_append, List.forall_mem_cons]
        exact ⟨⟨hdigits, hzeros _⟩, by decide, by decide, nofun⟩
      · simp only [String.toList_ofList, List.forall_mem_append, List.forall_mem_cons]
        exact ⟨fun c hc => hdigits c (List.mem_of_mem_take hc), by decide,
          fun c hc => hdigits c (List.mem_of_mem_drop hc)⟩
  · simp only [String.toList_ofList, List.forall_mem_append, List.forall_mem_cons]
    refine ⟨?_, by decide, by split <;> decide, ?_⟩
    · split
      · exact hdigits
      · obtain ⟨hfirst, hrest⟩ := List.forall_mem_cons.mp hdigits
        exact List.forall_mem_cons.mpr ⟨hfirst, List.forall_mem_cons.mpr ⟨by decide, hrest⟩⟩
      · exact hdigits
    · split
      · exact List.forall_mem_cons.mpr ⟨by decide, plain_toDigits _⟩
      · exact plain_toDigits _

theorem plain_float (x : Binary64) : ∀ c ∈ (writeFloat x).toList, Plain c := by
  cases x with
  | nan => simp [writeFloat, Plain]
  | infinite negative => cases negative <;> simp [writeFloat, Plain]
  | finite negative mantissa exponent =>
    have hsize : ∀ c ∈ (if mantissa == 0 then "0.0"
        else (Binary64.shortest mantissa exponent).text).toList, Plain c := by
      split
      · simp [Plain]
      · exact plain_decimal _
    unfold writeFloat Binary64.text
    dsimp only
    split
    · rw [String.toList_append, List.forall_mem_append]
      exact ⟨by simp [Plain], hsize⟩
    · exact hsize

/-! ## Values -/

theorem plain_lineBreak (layout : Layout) (level : Nat) :
    ∀ c ∈ layout.lineBreak level, Plain c := by
  intro c hc
  cases layout with
  | compact => cases hc
  | indented step =>
    rw [Layout.lineBreak, List.mem_cons, List.mem_replicate] at hc
    rcases hc with rfl | ⟨-, rfl⟩ <;> decide

theorem plain_writeItems {ds : List Data} {layout : Layout} {level : Nat}
    (h : ∀ d ∈ ds, ∀ c ∈ writeAt layout level d, Plain c) :
    ∀ c ∈ writeItems layout level ds, Plain c := by
  induction ds with
  | nil =>
    rw [writeItems]
    exact fun c hc => absurd hc List.not_mem_nil
  | cons d ds ih =>
    obtain ⟨hd, htail⟩ := List.forall_mem_cons.mp h
    rw [writeItems]
    simp only [List.forall_mem_append, List.forall_mem_cons]
    exact ⟨⟨⟨by decide, plain_lineBreak layout level⟩, hd⟩, ih htail⟩

theorem plain_writeFields {fs : Fields} {layout : Layout} {level : Nat}
    (h : ∀ entry ∈ fs, ∀ c ∈ writeAt layout level entry.2, Plain c) :
    ∀ c ∈ writeFields layout level fs, Plain c := by
  induction fs with
  | nil =>
    rw [writeFields]
    exact fun c hc => absurd hc List.not_mem_nil
  | cons entry fs ih =>
    obtain ⟨key, d⟩ := entry
    obtain ⟨hd, htail⟩ := List.forall_mem_cons.mp h
    rw [writeFields]
    simp only [List.forall_mem_append, List.forall_mem_cons]
    exact ⟨⟨⟨⟨by decide, plain_lineBreak layout level⟩, plain_writeString key⟩, by decide, by decide,
      hd⟩, ih htail⟩

theorem plain_scalar {d : Data} (hd : Syntax.isBranch d = false) (layout : Layout) (level : Nat) :
    ∀ c ∈ writeAt layout level d, Plain c := by
  cases d with
  | null => simp [writeAt, Plain]
  | bool b => cases b <;> simp [writeAt, Plain]
  | int n => rw [writeAt]; exact plain_int n
  | float x => rw [writeAt]; exact plain_float x
  | str s => rw [writeAt]; exact plain_writeString s
  | moment m => cases m <;> rw [writeAt] <;> exact plain_writeString _
  | list ds => cases hd
  | object fs => cases hd

/-- **What is written is plain.** -/
theorem plain_writeAt (layout : Layout) (d : Data) :
    ∀ level, ∀ c ∈ writeAt layout level d, Plain c := by
  induction d using Data.ind with
  | scalar d hd => exact plain_scalar hd layout
  | list ds ih =>
    intro level
    cases ds with
    | nil => simp [writeAt, Plain]
    | cons d ds =>
      obtain ⟨hd, htail⟩ := List.forall_mem_cons.mp ih
      rw [writeAt]
      simp only [List.forall_mem_append, List.forall_mem_cons]
      exact ⟨⟨⟨⟨⟨by decide, plain_lineBreak layout _⟩, hd _⟩,
        plain_writeItems fun d hd => htail d hd _⟩, plain_lineBreak layout _⟩, by simp [Plain]⟩
  | object fs ih =>
    intro level
    cases fs with
    | nil => simp [writeAt, Plain]
    | cons entry fs =>
      obtain ⟨key, d⟩ := entry
      obtain ⟨hd, htail⟩ := List.forall_mem_cons.mp ih
      rw [writeAt]
      simp only [List.forall_mem_append, List.forall_mem_cons]
      exact ⟨⟨⟨⟨⟨⟨by decide, plain_lineBreak layout _⟩, plain_writeString key⟩, by decide, by decide,
        hd _⟩, plain_writeFields fun entry he => htail entry he _⟩, plain_lineBreak layout _⟩,
        by simp [Plain]⟩

/-! ## Plain texts in files -/

/-- The bytes of a plain text. -/
def bytesOf (text : List Char) : List UInt8 :=
  text.map fun c => UInt8.ofNat c.toNat

theorem decode_plain {text : List Char} (h : ∀ c ∈ text, Plain c) :
    Text.Utf8.decode (bytesOf text) = .ok text := by
  have hfrom : ∀ (rest : List Char), (∀ c ∈ rest, Plain c) → ∀ (pos : Nat) (done : List Char),
      Text.Utf8.decodeFrom pos done (bytesOf rest) = .ok (done.reverse ++ rest) := by
    intro rest
    induction rest with
    | nil =>
      intro _ pos done
      rw [List.append_nil]
      rfl
    | cons c rest ih =>
      intro hplain pos done
      obtain ⟨hc, htail⟩ := List.forall_mem_cons.mp hplain
      have hsmall : c.toNat < 0x80 := hc.lt
      have hbyte : (UInt8.ofNat c.toNat).toNat = c.toNat := by
        rw [UInt8.toNat_ofNat']
        omega
      have hascii : UInt8.ofNat c.toNat < 0x80 := by
        rw [UInt8.lt_iff_toNat_lt, hbyte]
        exact hsmall
      rw [bytesOf, List.map_cons]
      unfold Text.Utf8.decodeFrom
      dsimp only
      rw [if_pos hascii, hbyte, Char.ofNat_toNat]
      refine (ih htail (pos + 1) (c :: done)).trans ?_
      rw [List.reverse_cons, List.append_assoc]
      rfl
  exact hfrom text h 0 []

theorem unifyBreaks_plain {text : List Char} (h : ∀ c ∈ text, Plain c) :
    Text.unifyBreaks text = text := by
  have hgo : ∀ (rest : List Char), (∀ c ∈ rest, Plain c) → ∀ (done : List Char),
      Text.unifyBreaks.go done rest = done.reverse ++ rest := by
    intro rest
    induction rest with
    | nil =>
      intro _ done
      rw [List.append_nil]
      rfl
    | cons c rest ih =>
      intro hplain done
      obtain ⟨hc, htail⟩ := List.forall_mem_cons.mp hplain
      have hne : c ≠ '\r' := by
        rintro rfl
        exact absurd hc (by decide)
      rw [Text.unifyBreaks.go, ih htail, List.reverse_cons, List.append_assoc]
      · rfl
      · rintro _ rfl
        exact absurd rfl hne
      · rintro rfl
        exact absurd rfl hne
  exact hgo text h []

end AttributeLint.Json
