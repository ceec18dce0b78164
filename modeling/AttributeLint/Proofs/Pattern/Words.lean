import AttributeLint.Proofs.Pattern.Ends
import AttributeLint.Proofs.Pattern.Faults
import AttributeLint.Proofs.Pattern.Moves
import AttributeLint.Proofs.Pattern.Peers
import Mathlib

/-!
# Words as patterns

A word here is a text without special characters.  As the source of a pattern it is read character by
character (`Reads`), and what the pattern is found in can be said of the text alone.

* `compile_word`: a word is found in the texts that it is part of.
* `compile_enclosed`: a word between `^` and `$` is found in itself and in nothing else.  The text that is
  the word and a line break after it is not an exception, because `$` has been spelled as the end of the
  text before the pattern is read.
-/

namespace AttributeLint.Pattern

/-! ## Reading a row of items -/

/-- The characters that a pattern does not read as themselves. -/
def special : List Char :=
  ['\\', '.', '^', '$', '*', '+', '?', '\x7b', '\x7d', '[', ']', '|', '(', ')']

/-- Tokens that are read as one item wherever they stand: characters that are not special, and the
anchors at both ends. -/
inductive Reads : Token → Regex → Prop
  | char {c : Char} (h : c ∉ special) : Reads (.plain c) (.code false c.toNat)
  | start : Reads (.plain '^') (.anchor .lineStart)
  | stop : Reads (.escaped 'Z') (.anchor .textEnd)

namespace Reads

variable {t : Token} {r : Regex}

theorem ne_dangling (h : Reads t r) : t ≠ .dangling := by
  rintro rfl
  cases h

theorem ne_close (h : Reads t r) : t ≠ .plain ')' := by
  rintro rfl
  cases h with
  | char h => exact h (by decide)

theorem bare_items (h : Reads t r) : r.bare.items = [r] := by
  cases h <;> rfl

theorem not_faulty (h : Reads t r) (template : Bool) : ¬ r.Faulty template := by
  cases h <;> simp [Regex.Faulty, Regex.fault?, Regex.isTooFar]

end Reads

theorem settle_of_reads {ts : List Token} {rs : List Regex} (h : List.Forall₂ Reads ts rs)
    (place : Nat) : Input.settle ts place = .ok ⟨ts, place⟩ := by
  cases h with
  | nil => rfl
  | @cons t r ts rs ht _ =>
    cases t with
    | dangling => exact absurd rfl ht.ne_dangling
    | _ => rfl

/-- A character that is not special is read as itself. -/
theorem character_of_not_special {s : State} {c : Char} (i : Input) (hc : c ∉ special)
    (hv : s.level.verbose = false) :
    Reader.character s c i = .ok (s.push (.code false c.toNat) i) := by
  have hrepeat : (c == '*' || c == '+' || c == '?' || c == '\x7b') = false := by
    simp only [special, List.mem_cons, not_or] at hc
    simp [hc]
  unfold Reader.character
  simp only [hv, Bool.false_and, Bool.false_eq_true, if_false]
  split
  · exact absurd (by decide) hc
  · exact absurd (by decide) hc
  · exact absurd (by decide) hc
  · exact absurd (by decide) hc
  · exact absurd (by decide) hc
  · rw [hrepeat]
    rfl

/-- One step reads one item. -/
theorem step_of_reads {s : State} {t : Token} {r : Regex} {ts : List Token} {rs : List Regex}
    (h : Reads t r) (hrest : List.Forall₂ Reads ts rs) (hs : s.input.rest = t :: ts)
    (hv : s.level.verbose = false) :
    Reader.step s t = .ok (s.push r ⟨ts, s.input.place + t.width⟩) := by
  have hnext : s.input.next = .ok (some t, ⟨ts, s.input.place + t.width⟩) := by
    rw [Input.next, hs]
    dsimp only
    rw [settle_of_reads hrest]
    rfl
  cases h with
  | @char c hc =>
    rw [Reader.step, hnext]
    · exact character_of_not_special _ hc hv
    · rintro rfl
      exact hc (by decide)
    · rintro rfl
      exact hc (by decide)
  | start =>
    rw [Reader.step, hnext]
    · show Reader.character s '^' _ = _
      unfold Reader.character
      simp only [hv, Bool.false_and, Bool.false_eq_true, if_false]
      rfl
    · decide
    · decide
  | stop =>
    rw [Reader.step, hnext]
    rfl

/-- **A row of such tokens is read as the row of their items.** -/
theorem run_of_reads {ts : List Token} {rs : List Regex} (h : List.Forall₂ Reads ts rs) :
    ∀ s : State, s.input.rest = ts → s.level.verbose = false →
      ∃ place, Reader.run ts.length s = .ok { s with
        level := { s.level with items := rs.reverse ++ s.level.items }, input := ⟨[], place⟩ } := by
  induction h with
  | nil =>
    rintro ⟨⟨rest, place⟩, flags, groups, level, outer⟩ hs _
    cases hs
    exact ⟨place, rfl⟩
  | @cons t r ts rs ht hrest ih =>
    intro s hs hv
    obtain ⟨place, hrun⟩ := ih (s.push r ⟨ts, s.input.place + t.width⟩) rfl hv
    refine ⟨place, ?_⟩
    have hclose : ¬ (decide (t = .plain ')') && s.outer.isEmpty) = true := by
      simp [ht.ne_close]
    rw [List.length_cons, Reader.run, hs]
    dsimp only
    rw [if_neg hclose, step_of_reads ht hrest hs hv]
    refine hrun.trans ?_
    rw [List.reverse_cons, List.append_assoc]
    rfl

/-- The flags under which words are read. -/
def asciiFlags : Flags := { ascii := true }

theorem sequence_of_reads {ts : List Token} {rs : List Regex} (h : List.Forall₂ Reads ts rs) :
    Regex.sequence rs = Regex.cats rs := by
  have hitems : rs.flatMap (fun r => r.bare.items) = rs := by
    induction h with
    | nil => rfl
    | cons ht _ ih => rw [List.flatMap_cons, ht.bare_items, ih, List.singleton_append]
  rw [Regex.sequence, hitems]

theorem parse_of_reads {source : List Char} {rs : List Regex}
    (h : List.Forall₂ Reads (tokenize source) rs) :
    parse source = .ok ⟨Regex.cats rs, asciiFlags⟩ := by
  obtain ⟨place, hrun⟩ := run_of_reads h (.start ⟨tokenize source, 0⟩) rfl rfl
  rw [parse, Input.ofChars, settle_of_reads h]
  show (Reader.run _ (.start ⟨tokenize source, 0⟩) >>= _) = _
  rw [hrun, ← sequence_of_reads h]
  show Except.ok (Reader.Parsed.mk (Regex.sequence (rs.reverse ++ []).reverse) asciiFlags) = _
  rw [List.append_nil, List.reverse_reverse]

theorem not_faulty_of_reads {ts : List Token} {rs : List Regex} (h : List.Forall₂ Reads ts rs)
    (template : Bool) : ¬ (Regex.cats rs).Faulty template := by
  rw [(Regex.gathers_faulty template).cats, not_exists]
  induction h with
  | nil => exact fun r hr => List.not_mem_nil hr.1
  | cons ht _ ih =>
    rintro r ⟨hr, hf⟩
    rcases List.mem_cons.mp hr with rfl | hr
    · exact ht.not_faulty template hf
    · exact ih r ⟨hr, hf⟩

/-- A source that is read as a row of items is a pattern for that row. -/
theorem ofSource_of_reads {source : List Char} {rs : List Regex}
    (h : List.Forall₂ Reads (tokenize source) rs) :
    ∃ p, ofSource source = .ok p ∧ p.regex = Regex.cats rs ∧ p.flags = asciiFlags := by
  have hparse := parse_of_reads h
  obtain ⟨p, hp⟩ := ofSource_ok_iff.mpr ⟨_, hparse, not_faulty_of_reads h _⟩
  obtain ⟨q, hq, hregex, hflags⟩ := ofSource_gives source p hp
  rw [hparse] at hq
  cases hq
  exact ⟨p, hp, hregex, hflags⟩

/-! ## Matching a row of items -/

/-- The items that a word is read as. -/
def letters (w : List Char) : List Regex :=
  w.map fun c => .code false c.toNat

/-- The cursor so many characters further on. -/
def Cursor.ahead (c : Cursor) (n : Nat) : Cursor :=
  ⟨c.index + n, (c.after.take n).reverse ++ c.before, c.after.drop n⟩

theorem codeHolds_toNat {f : Flags} (hf : f.ignoreCase = false) (a c : Char) :
    f.codeHolds a.toNat c = decide (a = c) := by
  have hignores : f.ignores a.toNat = false := by rw [Flags.ignores, hf, Bool.false_and]
  rw [Flags.codeHolds, hignores, if_neg Bool.false_ne_true, Bool.eq_iff_iff, beq_iff_eq,
    decide_eq_true_iff]
  exact ⟨fun h => (Char.toNat_inj.mp h).symm, fun h => congrArg Char.toNat h.symm⟩

/-- The letters of a word match exactly where the word stands next in the text. -/
theorem run_letters {e : Setting} (he : e.flags.ignoreCase = false) (rest : List Regex)
    (regs : Registers) (k : Continuation) (w : List Char) :
    ∀ c : Cursor, (Regex.cats (letters w ++ rest)).run e c regs k =
      if w <+: c.after then (Regex.cats rest).run e (c.ahead w.length) regs k else .fail regs := by
  induction w with
  | nil =>
    intro c
    rw [if_pos List.nil_prefix]
    rfl
  | cons a w ih =>
    rintro ⟨index, before, after⟩
    have hcons : letters (a :: w) ++ rest = .code false a.toNat :: (letters w ++ rest) := rfl
    rw [hcons, Regex.run_cats_cons]
    show Matcher.one (fun x => e.flags.codeHolds a.toNat x != false) ⟨index, before, after⟩ regs
      (fun c regs => (Regex.cats (letters w ++ rest)).run e c regs k) = _
    rw [Matcher.one, Cursor.over?]
    cases after with
    | nil => rw [if_neg (by simp)]
    | cons x after =>
      dsimp only
      rw [codeHolds_toNat he, Bool.bne_false]
      by_cases hx : a = x
      · subst hx
        rw [if_pos (decide_eq_true rfl)]
        dsimp only
        have hahead : Cursor.ahead ⟨index + 1, a :: before, after⟩ w.length =
            Cursor.ahead ⟨index, before, a :: after⟩ (w.length + 1) := by
          simp [Cursor.ahead, Nat.add_assoc, Nat.add_comm 1]
        rw [ih, hahead]
        simp only [List.cons_prefix_cons, true_and, List.length_cons]
      · rw [if_neg (by simpa using hx), if_neg fun h => hx (List.cons_prefix_cons.mp h).1]

/-- A word is a pattern that matches exactly where the word stands next. -/
theorem holdsAt_word (w : List Char) (c : Cursor) :
    (Regex.cats (letters w)).holdsAt asciiFlags c = true ↔ w <+: c.after := by
  have hrun := run_letters (e := { flags := asciiFlags }) rfl [] { place := c } .stop w c
  rw [List.append_nil] at hrun
  rw [Regex.holdsAt, hrun]
  split
  · next h => exact ⟨fun _ => h, fun _ => rfl⟩
  · next h => exact ⟨nofun, fun hw => absurd hw h⟩

/-- The items that a word between anchors is read as. -/
def enclosed (w : List Char) : List Regex :=
  .anchor .lineStart :: (letters w ++ [.anchor .textEnd])

theorem prefix_and_drop_iff {w text : List Char} :
    w <+: text ∧ text.drop w.length = [] ↔ text = w := by
  constructor
  · rintro ⟨⟨rest, rfl⟩, h⟩
    rw [List.drop_left] at h
    rw [h, List.append_nil]
  · rintro rfl
    exact ⟨List.prefix_rfl, List.drop_length⟩

/-- A word between anchors matches exactly at the start of a text that is this word. -/
theorem holdsAt_enclosed (w : List Char) (c : Cursor) :
    (Regex.cats (enclosed w)).holdsAt asciiFlags c = true ↔ c.before = [] ∧ c.after = w := by
  have hstart : Anchor.lineStart.holds asciiFlags c = c.before.isEmpty := by
    rw [Anchor.holds, asciiFlags, Bool.false_and, Bool.or_false]
  have hstop : ∀ (d : Cursor) (regs : Registers),
      ((Regex.cats [.anchor .textEnd]).run { flags := asciiFlags } d regs .stop).found =
        d.after.isEmpty := by
    intro d regs
    show (if d.after.isEmpty then Continuation.stop d regs else .fail regs).found = _
    cases d.after.isEmpty <;> rfl
  have hrun : ((Regex.cats (letters w ++ [.anchor .textEnd])).run { flags := asciiFlags } c
      { place := c } .stop).found = true ↔ c.after = w := by
    rw [run_letters rfl, ← prefix_and_drop_iff]
    split
    · next h => rw [hstop, List.isEmpty_iff]; exact ⟨fun hd => ⟨h, hd⟩, And.right⟩
    · next h =>
      refine iff_of_false ?_ fun hw => h hw.1
      rintro ⟨⟩
  rw [Regex.holdsAt, enclosed, Regex.run_cats_cons, ← hrun, ← List.isEmpty_iff, ← hstart]
  show (if Anchor.lineStart.holds asciiFlags c then
    (Regex.cats (letters w ++ [.anchor .textEnd])).run { flags := asciiFlags } c { place := c } .stop
    else .fail { place := c }).found = true ↔ _
  cases Anchor.lineStart.holds asciiFlags c with
  | true => exact ⟨fun h => ⟨rfl, h⟩, And.right⟩
  | false =>
    refine iff_of_false ?_ fun h => Bool.false_ne_true h.1
    rintro ⟨⟩

/-! ## Where a row of items is tried -/

theorem mem_onward {c : Cursor} : ∀ {after : List Char} {index : Nat} {before : List Char},
    c ∈ Cursor.onward index before after ↔
      ∃ passed rest, after = passed ++ rest ∧
        c = ⟨index + passed.length, passed.reverse ++ before, rest⟩ := by
  intro after
  induction after with
  | nil =>
    intro index before
    rw [Cursor.onward, List.mem_singleton]
    constructor
    · rintro rfl
      exact ⟨[], [], rfl, rfl⟩
    · rintro ⟨passed, rest, h, rfl⟩
      obtain ⟨rfl, rfl⟩ := List.append_eq_nil_iff.mp h.symm
      rfl
  | cons a after ih =>
    intro index before
    rw [Cursor.onward, List.mem_cons, ih]
    constructor
    · rintro (rfl | ⟨passed, rest, rfl, rfl⟩)
      · exact ⟨[], a :: after, rfl, rfl⟩
      · refine ⟨a :: passed, rest, rfl, ?_⟩
        simp [Nat.add_assoc, Nat.add_comm 1]
    · rintro ⟨passed, rest, h, rfl⟩
      cases passed with
      | nil =>
        cases h
        exact Or.inl rfl
      | cons b passed =>
        cases h
        refine Or.inr ⟨passed, rest, rfl, ?_⟩
        simp [Nat.add_assoc, Nat.add_comm 1]

/-- The cursors of a text are its ways to be two parts. -/
theorem mem_all_iff {c : Cursor} {text : List Char} :
    c ∈ Cursor.all text ↔
      ∃ passed rest, text = passed ++ rest ∧ c = ⟨passed.length, passed.reverse, rest⟩ := by
  rw [Cursor.all, mem_onward]
  simp only [Nat.zero_add, List.append_nil]

theorem least_cats_le (rs : List Regex) :
    (Regex.cats rs).width.least ≤ (rs.map fun r => r.width.least).sum := by
  induction rs with
  | nil => exact Nat.le_refl 0
  | cons r rest ih =>
    by_cases h : rest = []
    · subst h
      simp [Regex.cats]
    · rw [Regex.cats_cons h, Regex.width, Width.add, Width.capped, List.map_cons, List.sum_cons]
      exact (Nat.min_le_left _ _).trans (Nat.add_le_add_left ih _)

theorem sum_least_letters (w : List Char) :
    ((letters w).map fun r => r.width.least).sum = w.length := by
  induction w with
  | nil => rfl
  | cons c w ih =>
    have hcons : letters (c :: w) = .code false c.toNat :: letters w := rfl
    rw [hcons, List.map_cons, List.sum_cons, ih, List.length_cons, Nat.add_comm]
    rfl

theorem least_word_le (w : List Char) : (Regex.cats (letters w)).width.least ≤ w.length :=
  (least_cats_le _).trans_eq (sum_least_letters w)

theorem least_enclosed_le (w : List Char) : (Regex.cats (enclosed w)).width.least ≤ w.length := by
  refine (least_cats_le _).trans_eq ?_
  rw [enclosed, List.map_cons, List.sum_cons, List.map_append, List.sum_append, sum_least_letters]
  exact Nat.zero_add _

theorem literalStart_letters (w : List Char) :
    (Regex.cats (letters w)).literalStart asciiFlags = (w.map Char.toNat, true) := by
  induction w with
  | nil => rfl
  | cons c w ih =>
    have hcons : letters (c :: w) = .code false c.toNat :: letters w := rfl
    by_cases h : w = []
    · subst h
      rfl
    · have hne : letters w ≠ [] := fun hl => h (List.map_eq_nil_iff.mp hl)
      rw [hcons, Regex.cats_cons hne, Regex.literalStart, ih]
      rfl

/-- A word is tried wherever it stands next in a text. -/
theorem mem_starts_word {w text : List Char} {c : Cursor} (hc : c ∈ Cursor.all text)
    (hw : w <+: c.after) : c ∈ (Regex.cats (letters w)).starts asciiFlags text := by
  obtain ⟨passed, rest, rfl, rfl⟩ := mem_all_iff.mp hc
  have hlength : w.length ≤ (passed ++ rest).length := by
    have hrest : w.length ≤ rest.length := hw.length_le
    rw [List.length_append]
    omega
  have hleast := least_word_le w
  rw [Regex.starts, if_neg (by omega)]
  split
  · exact hc
  · next hne =>
    cases w with
    | nil => exact absurd rfl hne
    | cons a w =>
      rw [literalStart_letters]
      refine List.mem_filter.mpr ⟨hc, ?_⟩
      rw [List.isPrefixOf_iff_prefix]
      exact hw.map Char.toNat

/-- **A word is found in the texts that it is part of.** -/
theorem found_word (w text : List Char) :
    (Regex.cats (letters w)).found asciiFlags text = true ↔ w <:+: text := by
  rw [Regex.found, List.any_eq_true]
  constructor
  · rintro ⟨c, hc, hw⟩
    obtain ⟨passed, rest, rfl, rfl⟩ := mem_all_iff.mp (Regex.mem_all_of_mem_starts hc)
    obtain ⟨behind, rfl⟩ := (holdsAt_word w _).mp hw
    exact ⟨passed, behind, List.append_assoc _ _ _⟩
  · rintro ⟨passed, behind, rfl⟩
    have hprefix : w <+: w ++ behind := List.prefix_append w behind
    refine ⟨⟨passed.length, passed.reverse, w ++ behind⟩, mem_starts_word ?_ hprefix,
      (holdsAt_word w _).mpr hprefix⟩
    exact mem_all_iff.mpr ⟨passed, w ++ behind, List.append_assoc _ _ _, rfl⟩

/-- A word between anchors is tried at the start of the word. -/
theorem mem_starts_enclosed (w : List Char) :
    ⟨0, [], w⟩ ∈ (Regex.cats (enclosed w)).starts asciiFlags w := by
  have hall : ∃ rest, Cursor.all w = ⟨0, [], w⟩ :: rest := by
    cases w with
    | nil => exact ⟨[], rfl⟩
    | cons a w => exact ⟨_, rfl⟩
  obtain ⟨rest, hrest⟩ := hall
  have hleast := least_enclosed_le w
  have hcats : Regex.cats (enclosed w) =
      .cat (.anchor .lineStart) (Regex.cats (letters w ++ [.anchor .textEnd])) :=
    Regex.cats_cons (List.append_ne_nil_of_right_ne_nil _ (List.cons_ne_nil _ _))
  rw [Regex.starts, if_neg (by omega), hrest]
  split
  · exact List.mem_cons_self
  · rw [hcats]
    show _ ∈ List.take (w.length + 2 - _) _
    obtain ⟨n, hn⟩ := Nat.exists_eq_add_of_lt
      (show 0 < w.length + 2 - (Regex.cats (enclosed w)).width.least by omega)
    rw [← hcats, hn, Nat.zero_add, List.take_succ_cons]
    exact List.mem_cons_self

/-- **A word between anchors is found in itself and in nothing else.** -/
theorem found_enclosed (w text : List Char) :
    (Regex.cats (enclosed w)).found asciiFlags text = true ↔ text = w := by
  rw [Regex.found, List.any_eq_true]
  constructor
  · rintro ⟨c, hc, hw⟩
    obtain ⟨passed, rest, rfl, rfl⟩ := mem_all_iff.mp (Regex.mem_all_of_mem_starts hc)
    obtain ⟨hpassed, hrest⟩ := (holdsAt_enclosed w _).mp hw
    rw [List.reverse_eq_nil_iff] at hpassed
    rw [hpassed, List.nil_append]
    exact hrest
  · rintro rfl
    exact ⟨_, mem_starts_enclosed text, (holdsAt_enclosed text _).mpr ⟨rfl, rfl⟩⟩

/-! ## Words as sources -/

theorem tokenize_word {w : List Char} (hw : ∀ c ∈ w, c ∉ special) (rest : List Char) :
    tokenize (w ++ rest) = w.map .plain ++ tokenize rest := by
  induction w with
  | nil => rfl
  | cons c w ih =>
    obtain ⟨hc, hw⟩ := List.forall_mem_cons.mp hw
    have hne : c ≠ '\\' := by
      rintro rfl
      exact hc (by decide)
    rw [List.cons_append, tokenize_plain hne, ih hw, List.map_cons, List.cons_append]

theorem spelledFrom_word {w : List Char} (hw : ∀ c ∈ w, c ∉ special) (rest : List Token) :
    spelledFrom false (w.map .plain ++ rest) = w.map .plain ++ spelledFrom false rest := by
  induction w with
  | nil => rfl
  | cons c w ih =>
    obtain ⟨hc, hw⟩ := List.forall_mem_cons.mp hw
    have hdollar : c ≠ '$' := by
      rintro rfl
      exact hc (by decide)
    have hbracket : c ≠ '[' := by
      rintro rfl
      exact hc (by decide)
    have hspelled : Token.spelled false (.plain c) = .plain c := by simp [Token.spelled, hdollar]
    have hout : Token.bracketed false (.plain c) = false := by simp [Token.bracketed, hbracket]
    rw [List.map_cons, List.cons_append, spelledFrom, hspelled, hout, ih hw, List.cons_append]

theorem reads_letters {w : List Char} (hw : ∀ c ∈ w, c ∉ special) :
    List.Forall₂ Reads (w.map .plain) (letters w) :=
  List.forall₂_map_left_iff.mpr (List.forall₂_map_right_iff.mpr
    (List.forall₂_same.mpr fun c hc => .char (hw c hc)))

/-- A word is a pattern, and it is found in the texts that it is part of. -/
theorem compile_word {w : String} (hw : ∀ c ∈ w.toList, c ∉ special) :
    ∃ p, compile w = .ok p ∧
      ∀ text : String, p.search text = true ↔ w.toList <:+: text.toList := by
  have hreads : List.Forall₂ Reads (tokenize (endAnchors w.toList)) (letters w.toList) := by
    have htokens := tokenize_word hw []
    have hspelled := spelledFrom_word hw []
    rw [List.append_nil] at htokens hspelled
    rw [tokenize_endAnchors, htokens]
    rw [tokenize, List.append_nil, hspelled, spelledFrom, List.append_nil]
    exact reads_letters hw
  obtain ⟨p, hp, hregex, hflags⟩ := ofSource_of_reads hreads
  refine ⟨p, hp, fun text => ?_⟩
  rw [search, hregex, hflags, found_word]

/-- A word between anchors is a pattern, and it is found in itself and in nothing else. -/
theorem compile_enclosed {w : String} (hw : ∀ c ∈ w.toList, c ∉ special) :
    ∃ p, compile ("^" ++ w ++ "$") = .ok p ∧ ∀ text : String, p.search text = true ↔ text = w := by
  have hreads : List.Forall₂ Reads (tokenize (endAnchors ("^" ++ w ++ "$").toList))
      (enclosed w.toList) := by
    have hchars : ("^" ++ w ++ "$").toList = '^' :: (w.toList ++ ['$']) := by
      rw [String.toList_append, String.toList_append]
      rfl
    rw [tokenize_endAnchors, hchars, tokenize_plain (by decide), tokenize_word hw]
    show List.Forall₂ Reads
      (.plain '^' :: spelledFrom false (w.toList.map .plain ++ [.plain '$'])) _
    rw [spelledFrom_word hw]
    exact .cons .start (List.rel_append (reads_letters hw) (.cons .stop .nil))
  obtain ⟨p, hp, hregex, hflags⟩ := ofSource_of_reads hreads
  refine ⟨p, hp, fun text => ?_⟩
  rw [search, hregex, hflags, found_enclosed, String.toList_inj]

end AttributeLint.Pattern
