import AttributeLint.Json.Reader
import AttributeLint.Json.Writer
import Mathlib

/-!
# Strings and integers that are written can be read

The writer escapes a character by a letter, by one unit of sixteen bits or by two; the reader tells these
apart by what follows a backslash.  An integer is written without zeros in front, and it ends where
something comes that cannot be part of a number (`Stops`).

* `character_escapeChar`: one character is read as it was written, whatever comes behind it, as long as
  something does.  The closing quote does, so the condition is always met inside a string.
* `stringTail_written`: the same for a whole string, by induction on its characters.
* `value_int`: the same for an integer within the limit on digits.
-/

namespace AttributeLint.Json

/-! ## Units -/

theorem hexValue?_hexDigit : ∀ n < 16, Text.hexValue? (Text.hexDigit n) = some n := by
  decide

/-- Four digits are written for a number of sixteen bits, and they read as that number. -/
theorem hex_four {n : Nat} (hn : n < 0x10000) :
    ∃ a b c d, Text.hex 4 n = [a, b, c, d] ∧ hexFour? a b c d = some n := by
  refine ⟨Text.hexDigit (n / 16 / 16 / 16 % 16), Text.hexDigit (n / 16 / 16 % 16),
    Text.hexDigit (n / 16 % 16), Text.hexDigit (n % 16), rfl, ?_⟩
  have hvalue : ∀ m, Text.hexValue? (Text.hexDigit (m % 16)) = some (m % 16) :=
    fun m => hexValue?_hexDigit _ (Nat.mod_lt m (by decide))
  simp only [hexFour?, Text.isHexDigit, Text.ofHex, List.all_cons, List.all_nil, List.foldl_cons,
    List.foldl_nil, hvalue, Option.isSome_some, Option.getD_some, Bool.and_self, if_true]
  congr 1
  omega

/-- No character is half a pair. -/
theorem toNat_unpaired (c : Char) : isHighUnit c.toNat = false ∧ isLowUnit c.toNat = false := by
  have hvalid : c.toNat < 0xD800 ∨ 0xDFFF < c.toNat ∧ c.toNat < 0x110000 := c.valid
  simp only [isHighUnit, isLowUnit, Bool.and_eq_false_iff, decide_eq_false_iff_not]
  omega

theorem unitChar_toNat (c : Char) : unitChar c.toNat = c := by
  obtain ⟨hhigh, hlow⟩ := toNat_unpaired c
  rw [unitChar, hhigh, hlow]
  exact Char.ofNat_toNat c

/-- The two units of a character beyond sixteen bits. -/
theorem pairChar_units {c : Char} (hc : 0x10000 ≤ c.toNat) :
    pairChar (0xD800 + (c.toNat - 0x10000) / 0x400) (0xDC00 + (c.toNat - 0x10000) % 0x400) = c := by
  have hsum : 0x10000 + (0xD800 + (c.toNat - 0x10000) / 0x400 - 0xD800) * 0x400 +
      (0xDC00 + (c.toNat - 0x10000) % 0x400 - 0xDC00) = c.toNat := by omega
  rw [pairChar, hsum]
  exact Char.ofNat_toNat c

/-! ## One character -/

/-- A unit that is not the first of two is read alone. -/
theorem character_unit {a b c d : Char} {n : Nat} (h : hexFour? a b c d = some n)
    (hn : isHighUnit n = false) (opening : List Char) {rest : List Char} (hr : rest ≠ []) :
    character opening ('\\' :: 'u' :: a :: b :: c :: d :: rest) = .ok (unitChar n, rest) := by
  unfold character
  simp only [h]
  split
  · exact absurd rfl hr
  · next heq => cases heq
  · next heq =>
    cases heq
    rw [hn]
    rfl
  · next heq =>
    cases heq
    rfl

/-- Two units that belong together are read as one character. -/
theorem character_pair {a b c d e f g i : Char} {n m : Nat} (h : hexFour? a b c d = some n)
    (hn : isHighUnit n = true) (h' : hexFour? e f g i = some m) (hm : isLowUnit m = true)
    (opening : List Char) {more : List Char} (hr : more ≠ []) :
    character opening
      ('\\' :: 'u' :: a :: b :: c :: d :: '\\' :: 'u' :: e :: f :: g :: i :: more) =
        .ok (pairChar n m, more) := by
  have hmore : more.isEmpty = false := by
    rw [List.isEmpty_eq_false_iff]
    exact hr
  unfold character
  simp only [h, h', hn, hm, hmore]
  rfl

/-- A character that is written as itself is read as itself. -/
theorem character_self {c : Char} (hc : c ≠ '\\') (hspace : 0x20 ≤ c.toNat)
    (opening rest : List Char) : character opening (c :: rest) = .ok (c, rest) := by
  rw [character, if_neg (by omega)]
  · rintro rfl
    exact absurd rfl hc
  · rintro _ _ _ _ _ rfl
    exact absurd rfl hc
  · rintro _ _ rfl
    exact absurd rfl hc

theorem character_unitEscape (c : Char) (opening : List Char) {rest : List Char} (hr : rest ≠ []) :
    character opening (unitEscape c ++ rest) = .ok (c, rest) := by
  rw [unitEscape]
  split
  · next hc =>
    obtain ⟨x, y, z, w, hhex, hfour⟩ := hex_four hc
    rw [hhex]
    refine (character_unit hfour (toNat_unpaired c).1 opening hr).trans ?_
    rw [unitChar_toNat]
  · next hc =>
    have hc : 0x10000 ≤ c.toNat := by omega
    have hlt : c.toNat < 0x110000 := by
      have hvalid : c.toNat < 0xD800 ∨ 0xDFFF < c.toNat ∧ c.toNat < 0x110000 := c.valid
      omega
    have hhigh : isHighUnit (0xD800 + (c.toNat - 0x10000) / 0x400) = true := by
      rw [isHighUnit, Bool.and_eq_true, decide_eq_true_iff, decide_eq_true_iff]
      omega
    have hlow : isLowUnit (0xDC00 + (c.toNat - 0x10000) % 0x400) = true := by
      rw [isLowUnit, Bool.and_eq_true, decide_eq_true_iff, decide_eq_true_iff]
      omega
    obtain ⟨x, y, z, w, hhex, hfour⟩ := hex_four
      (show 0xD800 + (c.toNat - 0x10000) / 0x400 < 0x10000 by omega)
    obtain ⟨x', y', z', w', hhex', hfour'⟩ := hex_four
      (show 0xDC00 + (c.toNat - 0x10000) % 0x400 < 0x10000 by omega)
    dsimp only
    rw [hhex, hhex']
    refine (character_pair hfour hhigh hfour' hlow opening hr).trans ?_
    rw [pairChar_units hc]

/-- The ways in which a character is written: behind a backslash by its letter, as itself, or by its
units. -/
inductive Spells (c : Char) : List Char → Prop
  | letter {e : Char} (h : shortEscape? e = some c) : Spells c ['\\', e]
  | self (hquote : c ≠ '"') (hslash : c ≠ '\\') (hlow : 0x20 ≤ c.toNat) (hhigh : c.toNat ≤ 0x7E) :
      Spells c [c]
  | units : Spells c (unitEscape c)

theorem Spells.ite {c x e : Char} {rest : List Char} (h : shortEscape? e = some x)
    (hr : c ≠ x → Spells c rest) : Spells c (if c == x then ['\\', e] else rest) := by
  by_cases hc : c = x
  · rw [if_pos (beq_iff_eq.mpr hc)]
    exact .letter (hc ▸ h)
  · rw [if_neg (by simpa using hc)]
    exact hr hc

theorem spells_escapeChar (c : Char) : Spells c (escapeChar c) := by
  rw [escapeChar]
  refine .ite rfl fun hquote => .ite rfl fun hslash => .ite rfl fun _ => .ite rfl fun _ =>
    .ite rfl fun _ => .ite rfl fun _ => .ite rfl fun _ => ?_
  split
  · next hc =>
    rw [Bool.and_eq_true, decide_eq_true_iff, decide_eq_true_iff] at hc
    exact .self hquote hslash hc.1 hc.2
  · exact .units

theorem ne_u_of_shortEscape? {e c : Char} (h : shortEscape? e = some c) : e ≠ 'u' := by
  rintro rfl
  cases h

theorem character_letter {e c : Char} (h : shortEscape? e = some c) (opening rest : List Char) :
    character opening ('\\' :: e :: rest) = .ok (c, rest) := by
  have hu := ne_u_of_shortEscape? h
  rw [character, if_neg (by simpa using hu), h]
  rintro _ _ _ _ _ rfl
  exact absurd rfl hu

/-- **One character is read as it was written**, as long as something comes behind it. -/
theorem character_escapeChar (c : Char) (opening : List Char) {rest : List Char} (hr : rest ≠ []) :
    character opening (escapeChar c ++ rest) = .ok (c, rest) := by
  have hspells := spells_escapeChar c
  generalize escapeChar c = text at hspells ⊢
  cases hspells with
  | letter h => exact character_letter h opening rest
  | self _ hslash hlow _ => exact character_self hslash hlow opening rest
  | units => exact character_unitEscape c opening hr

/-! ## A whole string -/

/-- What is written for a character does not look like the end of the string. -/
theorem Spells.head {c : Char} {text : List Char} (h : Spells c text) :
    ∃ x more, text = x :: more ∧ x ≠ '"' := by
  cases h with
  | letter _ => exact ⟨_, _, rfl, by decide⟩
  | self hquote _ _ _ => exact ⟨c, [], rfl, hquote⟩
  | units =>
    rw [unitEscape]
    split
    · exact ⟨_, _, rfl, by decide⟩
    · exact ⟨_, _, rfl, by decide⟩

theorem stringTail_escapeChar (c : Char) (opening : List Char) (n : Nat) (done : List Char)
    {rest : List Char} (hr : rest ≠ []) :
    stringTail opening (n + 1) done (escapeChar c ++ rest) =
      stringTail opening n (c :: done) rest := by
  obtain ⟨x, more, htext, hx⟩ := (spells_escapeChar c).head
  have hread := character_escapeChar c opening hr
  rw [htext, List.cons_append] at hread ⊢
  rw [stringTail, hread]
  · rfl
  · rintro _ heq
    exact hx (List.cons.inj heq).1

/-- **A string is read as it was written.** -/
theorem stringTail_written (opening rest : List Char) (chars : List Char) :
    ∀ (n : Nat) (done : List Char), chars.length < n →
      stringTail opening n done (chars.flatMap escapeChar ++ '"' :: rest) =
        .ok (String.ofList (done.reverse ++ chars), rest) := by
  induction chars with
  | nil =>
    intro n done hn
    obtain ⟨m, rfl⟩ := Nat.exists_eq_add_of_lt hn
    rw [List.append_nil]
    rfl
  | cons c chars ih =>
    intro n done hn
    obtain ⟨m, rfl⟩ := Nat.exists_eq_add_of_lt hn
    rw [List.flatMap_cons, List.append_assoc, stringTail_escapeChar _ _ _ _ (by simp),
      ih _ _ (by simp; omega), List.reverse_cons, List.append_assoc]
    rfl

/-! ## Integers -/

/-- What comes behind a value: nothing, a comma, a closing bracket or a line break. -/
def Stops (rest : List Char) : Prop :=
  ∀ c ∈ rest.head?, c ∈ [',', ']', '\x7d', '\n']

theorem stops_cons {c : Char} (h : c ∈ [',', ']', '\x7d', '\n']) (rest : List Char) :
    Stops (c :: rest) := by
  intro x hx
  obtain rfl : c = x := Option.some.inj hx
  exact h

theorem Stops.not_isDigit {c : Char} {rest : List Char} (h : Stops (c :: rest)) :
    c.isDigit = false := by
  have hc := h c rfl
  simp only [List.mem_cons, List.not_mem_nil, or_false] at hc
  rcases hc with rfl | rfl | rfl | rfl <;> rfl

theorem digits_append {ds rest : List Char} (hd : ∀ c ∈ ds, c.isDigit = true) (hr : Stops rest) :
    digits (ds ++ rest) = (ds, rest) := by
  rw [digits, List.span_eq_takeWhile_dropWhile, List.takeWhile_append_of_pos hd,
    List.dropWhile_append_of_pos hd]
  cases rest with
  | nil => rw [List.takeWhile_nil, List.dropWhile_nil, List.append_nil]
  | cons c rest =>
    have hc : ¬ c.isDigit = true := by simp [hr.not_isDigit]
    rw [List.takeWhile_cons_of_neg hc, List.dropWhile_cons_of_neg hc, List.append_nil]

theorem fraction_of_stops {rest : List Char} (hr : Stops rest) : fraction rest = ([], rest) := by
  cases rest with
  | nil => rfl
  | cons c rest =>
    rw [fraction]
    rintro _ heq
    have hc := hr c rfl
    rw [(List.cons.inj heq).1] at hc
    exact absurd hc (by decide)

theorem exponent?_of_stops {rest : List Char} (hr : Stops rest) : exponent? rest = none := by
  cases rest with
  | nil => rfl
  | cons c rest =>
    have hc := hr c rfl
    simp only [List.mem_cons, List.not_mem_nil, or_false] at hc
    rcases hc with rfl | rfl | rfl | rfl <;> rfl

theorem ofDecimalDigits_toDigits (n : Nat) : ofDecimalDigits (Nat.toDigits 10 n) = n := by
  have h := @Nat.ofDigitChars_ten_toDigits n
  rw [Nat.ofDigitChars_eq_foldl] at h
  exact h

theorem isDigit_toDigits {n : Nat} : ∀ c ∈ Nat.toDigits 10 n, c.isDigit = true :=
  fun _ hc => Nat.isDigit_of_mem_toDigits (by decide) (by decide) hc

theorem toDigits_eq_cons (n : Nat) :
    ∃ c ds, Nat.toDigits 10 n = c :: ds ∧ c.isDigit = true := by
  obtain ⟨c, ds, heq⟩ := List.exists_cons_of_ne_nil (Nat.toDigits_ne_nil (n := n) (b := 10))
  exact ⟨c, ds, heq, isDigit_toDigits c (heq ▸ List.mem_cons_self)⟩

/-- Only zero is written with a zero in front. -/
theorem head_toDigits {n : Nat} (hn : 0 < n) :
    ∃ c ds, Nat.toDigits 10 n = c :: ds ∧ c ≠ '0' := by
  induction n using Nat.strong_induction_on with
  | _ n ih =>
    by_cases h : n < 10
    · refine ⟨n.digitChar, [], Nat.toDigits_of_lt_base h, fun hc => ?_⟩
      rw [Nat.digitChar_eq_zero] at hc
      omega
    · obtain ⟨c, ds, heq, hc⟩ := ih (n / 10) (by omega) (by omega)
      refine ⟨c, ds ++ [(n % 10).digitChar], ?_, hc⟩
      rw [Nat.toDigits_of_base_le (by decide) (by omega), heq, List.cons_append]

theorem wholePart?_toDigits (n : Nat) {rest : List Char} (hr : Stops rest) :
    wholePart? (Nat.toDigits 10 n ++ rest) = some (Nat.toDigits 10 n, rest) := by
  rcases Nat.eq_zero_or_pos n with rfl | hn
  · rw [Nat.toDigits_zero]
    rfl
  · have hdigits := digits_append (isDigit_toDigits (n := n)) hr
    obtain ⟨c, ds, heq, hc⟩ := head_toDigits hn
    rw [heq, List.cons_append] at hdigits ⊢
    rw [wholePart?, hdigits]
    rintro _ h
    exact hc (List.cons.inj h).1

/-- The digits of an integer behind its sign. -/
theorem toList_toString (n : Int) :
    (toString n).toList =
      if n < 0 then '-' :: Nat.toDigits 10 n.natAbs else Nat.toDigits 10 n.natAbs := by
  have hrepr : toString n = n.repr := rfl
  rw [hrepr, Int.repr_eq_if]
  by_cases hn : n < 0
  · have habs : (-n).toNat = n.natAbs := by omega
    have hminus : "-".toList = ['-'] := rfl
    rw [if_neg (by omega), if_pos hn, String.toList_append, hminus, Nat.repr_eq_ofList_toDigits,
      String.toList_ofList, habs]
    rfl
  · have habs : n.toNat = n.natAbs := by omega
    rw [if_pos (by omega), if_neg hn, Nat.repr_eq_ofList_toDigits, String.toList_ofList, habs]

theorem number_written {n : Int} (hn : n.natAbs < 10 ^ Integer.digitLimit) {rest : List Char}
    (hr : Stops rest) : number ((toString n).toList ++ rest) = .ok (.int n, rest) := by
  have hlength : (Nat.toDigits 10 n.natAbs).length ≤ Integer.digitLimit :=
    (Nat.length_toDigits_le_iff (by decide) (by decide)).mpr hn
  have hwhole := wholePart?_toDigits n.natAbs hr
  rw [toList_toString]
  split
  · next hneg =>
    have habs : -(n.natAbs : Int) = n := by omega
    rw [List.cons_append, number]
    simp only [hwhole, fraction_of_stops hr, exponent?_of_stops hr, if_pos hlength,
      ofDecimalDigits_toDigits, if_true, habs]
  · next hpos =>
    have habs : (n.natAbs : Int) = n := by omega
    obtain ⟨c, ds, hdigits, hc⟩ := toDigits_eq_cons n.natAbs
    unfold number
    split
    next heq =>
    split at heq
    · next hminus =>
      rw [hdigits] at hminus
      rw [(List.cons.inj hminus).1] at hc
      exact absurd hc (by decide)
    · cases heq
      simp only [hwhole, fraction_of_stops hr, exponent?_of_stops hr, if_pos hlength,
        ofDecimalDigits_toDigits, Bool.false_eq_true, if_false, habs]

/-- A text that starts with a digit, or with a sign and a digit, is read as a number. -/
theorem value_digit {c : Char} (hc : c.isDigit = true) (text : List Char) (n : Nat) :
    value (n + 1) (c :: text) = number (c :: text) := by
  rw [value]
  all_goals
    rintro _ heq
    rw [(List.cons.inj heq).1] at hc
    exact absurd hc (by decide)

theorem value_minus {c : Char} (hc : c.isDigit = true) (text : List Char) (n : Nat) :
    value (n + 1) ('-' :: c :: text) = number ('-' :: c :: text) := by
  rw [value]
  all_goals
    rintro _ heq
    cases heq
  exact absurd hc (by decide)

theorem value_int {n : Int} (hn : n.natAbs < 10 ^ Integer.digitLimit) {rest : List Char}
    (hr : Stops rest) (k : Nat) :
    value (k + 1) ((toString n).toList ++ rest) = .ok (.int n, rest) := by
  rw [← number_written hn hr]
  obtain ⟨c, ds, hdigits, hc⟩ := toDigits_eq_cons n.natAbs
  rw [toList_toString, hdigits]
  split
  · exact value_minus hc _ k
  · exact value_digit hc _ k

end AttributeLint.Json
