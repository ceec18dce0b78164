import AttributeLint.Proofs.Json.Scalars
import AttributeLint.Proofs.Number.ShortestDecimal
import AttributeLint.Proofs.Rule.Findings

/-!
# Literal values as JavaScript shows them

JavaScript turns a value into text by `String(v)`.  `scriptText` is this text for booleans, texts, whole
numbers and lists of such values.  A whole number is first rounded to a number of the format and then written
as its shortest decimal, from `10 ^ 21` on with an exponent; a list is its items with commas between them.

The text that is taken from a literal is not always this one.  `literal_text_eq_scriptText_iff`: **it is
exactly for booleans, for texts, and for whole numbers below `10 ^ 21` that are their own shortest decimal**
(`WrittenAlike`), so for no list at all.

* `toDigits_eq_iff`: whole numbers.  Below `10 ^ 21` the shortest decimal is written in full or with an exponent;
  from there on the text has something that is no digit, or too few of them.
* `brackets_list_lt`: lists.  A list has more opening brackets in the one text than in the other.
-/

namespace AttributeLint

/-! ## The text of a number in JavaScript -/

namespace Binary64

/-- The text of a positive decimal.  It is positional if the point stands from five zeros before the first
digit to twenty-one digits behind it. -/
def Decimal.scriptText (d : Decimal) : List Char :=
  let digits := Nat.toDigits 10 d.digits
  let count : Int := digits.length
  let point := count + d.exponent
  if count ≤ point ∧ point ≤ 21 then digits ++ List.replicate (point - count).toNat '0'
  else if 0 < point ∧ point ≤ 21 then digits.take point.toNat ++ '.' :: digits.drop point.toNat
  else if -6 < point ∧ point ≤ 0 then '0' :: '.' :: List.replicate (-point).toNat '0' ++ digits
  else
    let mantissa := if digits.length = 1 then digits else digits.take 1 ++ '.' :: digits.drop 1
    let sign := if point - 1 < 0 then '-' else '+'
    mantissa ++ 'e' :: sign :: Nat.toDigits 10 (point - 1).natAbs

/-- The text of a number.  A negative zero has no sign. -/
def scriptText : Binary64 → List Char
  | nan => "NaN".toList
  | infinite negative => (if negative then ['-'] else []) ++ "Infinity".toList
  | finite negative mantissa exponent =>
    if mantissa = 0 then ['0']
    else (if negative then ['-'] else []) ++ (shortest mantissa exponent).scriptText

theorem toDigits_mul_pow {s : Nat} (hs : 0 < s) (j : Nat) :
    Nat.toDigits 10 (s * 10 ^ j) = Nat.toDigits 10 s ++ List.replicate j '0' := by
  induction j with
  | zero => rw [Nat.pow_zero, Nat.mul_one, List.replicate_zero, List.append_nil]
  | succ j ih =>
    have hpos : 0 < s * 10 ^ j := Nat.mul_pos hs (Nat.pow_pos (by decide))
    have hshift : s * 10 ^ (j + 1) = 10 * (s * 10 ^ j) + 0 := by ring
    rw [hshift, ← Nat.toDigits_append_toDigits (by decide) hpos (by decide), ih, List.replicate_succ',
      List.append_assoc]
    rfl

theorem toDigits_inj {m n : Nat} : Nat.toDigits 10 m = Nat.toDigits 10 n ↔ m = n := by
  refine ⟨fun h => ?_, congrArg _⟩
  rw [← Json.ofDecimalDigits_toDigits m, h, Json.ofDecimalDigits_toDigits]

/-- A decimal without places behind the point is written in full, unless it has more than twenty-one digits. -/
theorem scriptText_whole {s : Nat} (hs : 0 < s) (j : Nat) :
    (Decimal.mk s (j : Int)).scriptText = Nat.toDigits 10 (s * 10 ^ j) ∧ s * 10 ^ j < 10 ^ 21 ∨
      'e' ∈ (Decimal.mk s (j : Int)).scriptText ∧ 10 ^ 21 ≤ s * 10 ^ j := by
  have hlength := @Nat.length_toDigits_le_iff 10 (s * 10 ^ j) 21 (by decide) (by decide)
  rw [toDigits_mul_pow hs, List.length_append, List.length_replicate] at hlength
  rw [toDigits_mul_pow hs, Decimal.scriptText]
  dsimp only
  by_cases hle : (Nat.toDigits 10 s).length + j ≤ 21
  · left
    rw [if_pos (by omega), show ((Nat.toDigits 10 s).length + j - (Nat.toDigits 10 s).length : Int).toNat = j by
      omega]
    exact ⟨rfl, hlength.mp hle⟩
  · right
    rw [if_neg (by omega), if_neg (by omega), if_neg (by omega)]
    refine ⟨?_, by omega⟩
    simp

example : (Decimal.mk 12 20).scriptText = "1.2e+21".toList := by decide

/-- If all that a decimal is written with are digits, there are at most twenty-one. -/
theorem length_scriptText_le {d : Decimal} (h : ∀ c ∈ d.scriptText, c.isDigit = true) :
    d.scriptText.length ≤ 21 := by
  rw [Decimal.scriptText] at *
  dsimp only at *
  split at h
  · next hpoint =>
    rw [if_pos hpoint, List.length_append, List.length_replicate]
    omega
  · exfalso
    split at h
    · exact absurd (h '.' (by simp)) (by decide)
    · split at h
      · exact absurd (h '.' (by simp)) (by decide)
      · exact absurd (h 'e' (by simp)) (by decide)

theorem Decimal.bracket_not_mem_scriptText (d : Decimal) : '[' ∉ d.scriptText := by
  have hdigits : ∀ n, '[' ∉ Nat.toDigits 10 n := fun n h => absurd (Json.isDigit_toDigits _ h) (by decide)
  have htake : ∀ k, '[' ∉ (Nat.toDigits 10 d.digits).take k := fun k h =>
    hdigits _ (List.mem_of_mem_take h)
  have hdrop : ∀ k, '[' ∉ (Nat.toDigits 10 d.digits).drop k := fun k h =>
    hdigits _ (List.mem_of_mem_drop h)
  have htail : '[' ∉ (Nat.toDigits 10 d.digits).tail := fun h => hdigits _ (List.mem_of_mem_tail h)
  rw [Decimal.scriptText]
  dsimp only
  split
  · simp [hdigits]
  · split
    · simp [htake, hdrop]
    · split
      · simp [hdigits]
      · split <;> split <;> simp [hdigits, htake, htail]

theorem bracket_not_mem_scriptText (x : Binary64) : '[' ∉ x.scriptText := by
  cases x with
  | nan => decide
  | infinite negative => cases negative <;> decide
  | finite negative mantissa exponent =>
    rw [scriptText]
    split
    · decide
    · cases negative <;> simp [Decimal.bracket_not_mem_scriptText]

theorem scriptText_ofDecimal_true {a : Nat} (ha : 0 < a) :
    scriptText (ofDecimal true a 0) = '-' :: scriptText (ofDecimal false a 0) := by
  have hne : (nearest a).1 ≠ 0 := (mantissa_nearest_pos ha).ne'
  rw [ofDecimal_whole true ha, ofDecimal_whole false ha]
  split
  · rfl
  · simp [scriptText, hne]

/-- A whole number has the text of its digits exactly if it is its own shortest decimal and not too large. -/
theorem toDigits_eq_iff (a : Nat) :
    Nat.toDigits 10 a = scriptText (ofDecimal false a 0) ↔ a < 10 ^ 21 ∧ OwnShortest a := by
  rcases Nat.eq_zero_or_pos a with rfl | ha
  · rw [ofDecimal_zero, scriptText, if_pos rfl]
    exact iff_of_true rfl ⟨by decide, ownShortest_zero⟩
  have hne : (nearest a).1 ≠ 0 := (mantissa_nearest_pos ha).ne'
  have hdigits := @Json.isDigit_toDigits a
  by_cases hsmall : a < 10 ^ 21
  · obtain ⟨s, j, hshortest, hs, hown⟩ := shortest_whole ha hsmall
    have htext : scriptText (ofDecimal false a 0) = (Decimal.mk s j).scriptText := by
      rw [ofDecimal_of_lt false ha hsmall, ← hshortest]
      simp [scriptText, hne]
    rw [htext, and_iff_right hsmall, ← hown]
    obtain ⟨hfull, _⟩ | ⟨he, hlarge⟩ := scriptText_whole hs j
    · rw [hfull, toDigits_inj, eq_comm]
    · refine iff_of_false (fun heq => ?_) (by omega)
      rw [← heq] at he
      exact absurd (hdigits 'e' he) (by decide)
  · refine iff_of_false (fun heq => ?_) fun h => hsmall h.1
    have hlong : ¬(Nat.toDigits 10 a).length ≤ 21 := by
      rwa [Nat.length_toDigits_le_iff (by decide) (by decide)]
    rw [heq, ofDecimal_whole false ha] at hdigits hlong
    split at hdigits
    · exact absurd (hdigits 'I' (by decide)) (by decide)
    · next hfinite =>
      rw [if_neg hfinite] at hlong
      simp only [scriptText, if_neg hne, Bool.false_eq_true, if_false, List.nil_append] at hdigits hlong
      exact hlong (length_scriptText_le hdigits)

/-- **Which whole numbers are written alike.** -/
theorem toList_toString_eq_iff (n : Int) :
    (toString n).toList = scriptText (ofDecimal (decide (n < 0)) n.natAbs 0) ↔
      n.natAbs < 10 ^ 21 ∧ OwnShortest n.natAbs := by
  rw [Json.toList_toString, ← toDigits_eq_iff]
  by_cases hn : n < 0
  · rw [if_pos hn, decide_eq_true hn, scriptText_ofDecimal_true (by omega), List.cons_inj_right]
  · rw [if_neg hn, decide_eq_false hn]

end Binary64

/-! ## The text of a value in JavaScript -/

namespace Syntax

open Binary64 (ofDecimal OwnShortest)

mutual

/-- The text of a boolean, a text, a whole number or a list of such values. -/
def scriptText : Data → String
  | .bool b => if b then "true" else "false"
  | .str s => s
  | .int n => String.ofList (ofDecimal (decide (n < 0)) n.natAbs 0).scriptText
  | .list items => ",".intercalate (scriptItems items)
  | _ => ""

/-- The items of a list. -/
def scriptItems : List Data → List String
  | [] => []
  | d :: rest => scriptText d :: scriptItems rest

end

/-- A boolean, a text, a whole number or a list of such values. -/
inductive Plain : Data → Prop
  | bool (b : Bool) : Plain (.bool b)
  | str (s : String) : Plain (.str s)
  | int (n : Int) : Plain (.int n)
  | list {items : List Data} (h : ∀ d ∈ items, Plain d) : Plain (.list items)

/-- What has the same text in JavaScript. -/
def WrittenAlike : Data → Prop
  | .int n => n.natAbs < 10 ^ 21 ∧ OwnShortest n.natAbs
  | .list _ => False
  | _ => True

/-! ## Brackets -/

/-- How many opening brackets a text has. -/
def brackets (text : String) : Nat :=
  text.toList.count '['

theorem brackets_append (s t : String) : brackets (s ++ t) = brackets s + brackets t := by
  rw [brackets, String.toList_append, List.count_append]
  rfl

theorem brackets_intercalate {sep : String} (hsep : brackets sep = 0) (texts : List String) :
    brackets (sep.intercalate texts) = (texts.map brackets).sum := by
  induction texts with
  | nil => rfl
  | cons t rest ih =>
    cases rest with
    | nil => simp
    | cons u rest =>
      rw [String.intercalate_cons_cons, brackets_append, brackets_append, ih, hsep]
      simp

theorem count_le_quoteChar (quote c : Char) :
    [c].count '[' ≤ (Text.quoteChar quote c).count '[' := by
  by_cases hc : c = '['
  · subst hc
    rw [Text.quoteChar]
    split
    · simp
    · decide
  · simp [hc]

theorem brackets_le_quoted (s : String) : brackets s ≤ brackets (Text.quoted s) := by
  have hchars : ∀ (quote : Char) (cs : List Char),
      cs.count '[' ≤ (cs.flatMap (Text.quoteChar quote)).count '[' := by
    intro quote cs
    induction cs with
    | nil => simp
    | cons c cs ih =>
      rw [List.flatMap_cons, List.count_append, ← List.singleton_append, List.count_append]
      exact Nat.add_le_add (count_le_quoteChar quote c) ih
  rw [brackets, brackets, Text.quoted, String.toList_ofList, Text.quote,
    List.cons_append, List.count_cons, List.count_append]
  have := hchars (Text.quoteFor s.toList) s.toList
  omega

theorem scriptItems_eq (items : List Data) : scriptItems items = items.map scriptText := by
  induction items with
  | nil => rw [scriptItems, List.map_nil]
  | cons d rest ih => rw [scriptItems, ih, List.map_cons]

theorem inspectItems_eq (items : List Data) : Data.inspectItems items = items.map Data.inspect := by
  induction items with
  | nil => rw [Data.inspectItems, List.map_nil]
  | cons d rest ih => rw [Data.inspectItems, ih, List.map_cons]

/-- A list has more opening brackets than in JavaScript, where only those of its items are left. -/
theorem brackets_list_lt {items : List Data}
    (h : ∀ d ∈ items, brackets (scriptText d) ≤ brackets d.inspect) :
    brackets (scriptText (.list items)) < brackets (Data.list items).inspect := by
  have hopen : brackets "[" = 1 := by decide
  have hitems : (items.map (brackets ∘ scriptText)).sum ≤ (items.map (brackets ∘ Data.inspect)).sum :=
    List.sum_le_sum h
  rw [scriptText, Data.inspect, brackets_append, brackets_append, brackets_intercalate (by decide),
    brackets_intercalate (by decide), scriptItems_eq, inspectItems_eq, List.map_map, List.map_map, hopen]
  omega

theorem Plain.brackets_le {d : Data} (h : Plain d) : brackets (scriptText d) ≤ brackets d.inspect := by
  induction h with
  | bool b => cases b <;> simp [scriptText, brackets]
  | str s =>
    rw [scriptText, Data.inspect]
    exact brackets_le_quoted s
  | int n =>
    have hnone : brackets (scriptText (.int n)) = 0 := by
      rw [scriptText, brackets, String.toList_ofList]
      exact List.count_eq_zero.mpr (Binary64.bracket_not_mem_scriptText _)
    rw [hnone]
    exact Nat.zero_le _
  | list _ ih => exact (brackets_list_lt ih).le

/-! ## Where the texts agree -/

/-- A text if it is not empty. -/
def shown (text : String) : Option String :=
  if text = "" then none else some text

theorem shown_inj {s t : String} : shown s = shown t ↔ s = t := by
  refine ⟨fun h => ?_, congrArg shown⟩
  simp only [shown] at h
  split at h <;> split at h <;> simp_all

theorem literal?_literalNode {v : Data} {text : String} (h : literalText? v = some text) :
    (AttributeValue.ofNode (literalNode v)).bind AttributeValue.literal? = shown text := by
  have hvalue : AttributeValue.ofNode (literalNode v) = some (.literal v) := rfl
  rw [hvalue, Option.bind_some, AttributeValue.literal?, h, shown]
  simp only [String.isEmpty_iff]

/-- **The text taken from a literal is the one that JavaScript shows exactly if the value is a boolean, a text,
or a whole number below `10 ^ 21` that is its own shortest decimal.**  All whole numbers below `2 ^ 53` are. -/
theorem literal_text_eq_scriptText_iff {v : Data} (hv : Plain v) :
    ((AttributeValue.ofNode (literalNode v)).bind AttributeValue.literal? = shown (scriptText v) ↔
      WrittenAlike v) ∧
    ∀ n : Int, n.natAbs < 2 ^ 53 → WrittenAlike (.int n) := by
  refine ⟨?_, fun n hn => ⟨lt_trans hn (by decide), Binary64.ownShortest_of_lt hn⟩⟩
  cases hv with
  | bool b =>
    rw [literal?_literalNode rfl, scriptText]
    exact iff_of_true rfl trivial
  | str s =>
    rw [literal?_literalNode rfl, scriptText]
    exact iff_of_true rfl trivial
  | int n =>
    rw [literal?_literalNode rfl, shown_inj, scriptText, WrittenAlike, ← Binary64.toList_toString_eq_iff,
      ← String.toList_inj, String.toList_ofList]
    rfl
  | list h =>
    rw [literal?_literalNode rfl, shown_inj]
    refine iff_of_false (fun he => ?_) not_false
    have hlt := brackets_list_lt fun d hd => (h d hd).brackets_le
    rw [← he] at hlt
    exact Nat.lt_irrefl _ hlt

/-- A list of two numbers, and a whole number that is rounded. -/
theorem literal_text_eq_scriptText_iff_sample :
    scriptText (.list [.int 1, .int 2]) = "1,2" ∧
    (AttributeValue.ofNode (literalNode (.list [.int 1, .int 2]))).bind AttributeValue.literal? ≠
      shown (scriptText (.list [.int 1, .int 2])) ∧
    scriptText (.int 9007199254740993) = "9007199254740992" ∧
    ¬WrittenAlike (.int 9007199254740993) := by
  have hlist : Plain (.list [.int 1, .int 2]) := .list (by simp [Plain.int])
  have htext : scriptText (.int 9007199254740993) = "9007199254740992" := by decide +kernel
  refine ⟨by decide +kernel, (literal_text_eq_scriptText_iff hlist).1.not.mpr not_false, htext, fun h => ?_⟩
  have heq := (literal_text_eq_scriptText_iff (.int 9007199254740993)).1.mpr h
  rw [htext] at heq
  revert heq
  decide +kernel

end Syntax

end AttributeLint
