import AttributeLint.Proofs.Fields
import AttributeLint.Proofs.Json.Plain
import Mathlib

/-!
# Data that is written can be read

* `Writable`: the data that has a written form which reads as the same data.  Integers keep to the limit on
  digits, and no field occurs twice.
* `Writable.readsBack`: a value is read as it was written, at any level of any layout and before anything that
  cannot be taken for more of it (`Stops`).  The fuel that is needed is at most the length of the text.
* `eq_of_writeAt_append_eq`: so a text determines the value that it starts with.
* `read_written`: a whole text, with blanks behind it or without.
-/

namespace AttributeLint.Json

/-! ## What can be written -/

/-- The data whose text reads as the same data: integers keep to the limit on digits, no field occurs
twice, and there are no floating-point numbers and no moments. -/
inductive Writable : Data → Prop
  | null : Writable .null
  | bool (b : Bool) : Writable (.bool b)
  | int {n : Int} (h : n.natAbs < 10 ^ Integer.digitLimit) : Writable (.int n)
  | str (s : String) : Writable (.str s)
  | list {items : List Data} (h : ∀ d ∈ items, Writable d) : Writable (.list items)
  | object {fields : Fields} (hk : fields.keys.Nodup) (h : ∀ entry ∈ fields, Writable entry.2) :
      Writable (.object fields)

theorem isBlank_of_isDigit {c : Char} (hc : c.isDigit = true) : isBlank c = false := by
  simp only [isBlank, Bool.or_eq_false_iff, beq_eq_false_iff_ne]
  refine ⟨⟨⟨?_, ?_⟩, ?_⟩, ?_⟩
  all_goals
    rintro rfl
    exact absurd hc (by decide)

/-- The first character of a value is neither blank nor a closing bracket. -/
theorem head_writeAt {d : Data} (hd : Writable d) (layout : Layout) (level : Nat) :
    ∃ c more, writeAt layout level d = c :: more ∧ isBlank c = false ∧ c ≠ ']' := by
  cases hd with
  | null => exact ⟨_, _, by rw [writeAt]; rfl, by decide, by decide⟩
  | bool b => cases b <;> exact ⟨_, _, by rw [writeAt]; rfl, by decide, by decide⟩
  | @int n h =>
    rw [writeAt, toList_toString]
    split
    · exact ⟨_, _, rfl, by decide, by decide⟩
    · obtain ⟨c, ds, hdigits, hc⟩ := toDigits_eq_cons n.natAbs
      refine ⟨c, ds, hdigits, ?_, ?_⟩
      · exact isBlank_of_isDigit hc
      · rintro rfl
        exact absurd hc (by decide)
  | str s => exact ⟨_, _, by rw [writeAt]; rfl, by decide, by decide⟩
  | @list items h =>
    cases items with
    | nil => exact ⟨_, _, by rw [writeAt], by decide, by decide⟩
    | cons d items => exact ⟨_, _, by rw [writeAt]; rfl, by decide, by decide⟩
  | @object fields hk h =>
    cases fields with
    | nil => exact ⟨_, _, by rw [writeAt], by decide, by decide⟩
    | cons entry fields => exact ⟨_, _, by rw [writeAt]; rfl, by decide, by decide⟩

theorem length_writeAt_pos {d : Data} (hd : Writable d) (layout : Layout) (level : Nat) :
    0 < (writeAt layout level d).length := by
  obtain ⟨c, more, hhead, -⟩ := head_writeAt hd layout level
  rw [hhead, List.length_cons]
  omega

/-! ## Blanks -/

theorem skip_cons {c : Char} (hc : isBlank c = false) (rest : List Char) :
    skip (c :: rest) = c :: rest :=
  List.dropWhile_cons_of_neg (by simp [hc])

theorem skip_lineBreak (layout : Layout) (level : Nat) (text : List Char) :
    skip (layout.lineBreak level ++ text) = skip text := by
  refine List.dropWhile_append_of_pos fun c hc => ?_
  cases layout with
  | compact => cases hc
  | indented step =>
    rw [Layout.lineBreak, List.mem_cons, List.mem_replicate] at hc
    rcases hc with rfl | ⟨-, rfl⟩ <;> rfl

theorem stops_lineBreak (layout : Layout) (level : Nat) {c : Char}
    (h : c ∈ [',', ']', '\x7d', '\n']) (rest : List Char) :
    Stops (layout.lineBreak level ++ c :: rest) := by
  cases layout with
  | compact => exact stops_cons h rest
  | indented step => exact stops_cons (by decide) _

theorem skip_writeAt {d : Data} (hd : Writable d) (layout : Layout) (level : Nat)
    (rest : List Char) :
    skip (writeAt layout level d ++ rest) = writeAt layout level d ++ rest := by
  obtain ⟨c, more, hhead, hblank, -⟩ := head_writeAt hd layout level
  rw [hhead, List.cons_append, skip_cons hblank]

/-! ## Lists -/

/-- A value is read as it was written, wherever it stands. -/
def ReadsBack (d : Data) : Prop :=
  ∀ (layout : Layout) (level n : Nat) (rest : List Char), Stops rest →
    (writeAt layout level d).length ≤ n → value n (writeAt layout level d ++ rest) = .ok (d, rest)

theorem stops_writeItems (layout : Layout) (level closing : Nat) (ds : List Data)
    (rest : List Char) :
    Stops (writeItems layout level ds ++ (layout.lineBreak closing ++ ']' :: rest)) := by
  cases ds with
  | nil =>
    rw [writeItems, List.nil_append]
    exact stops_lineBreak layout closing (by decide) rest
  | cons d ds =>
    rw [writeItems]
    exact stops_cons (by decide) _

/-- The items of a list, the first of which is `d`. -/
theorem items_written (layout : Layout) (level closing : Nat) (rest : List Char) (ds : List Data) :
    ∀ (d : Data) (n : Nat) (done : List Data), (∀ x ∈ d :: ds, Writable x ∧ ReadsBack x) →
      (writeAt layout level d).length + (writeItems layout level ds).length < n →
      items n done (writeAt layout level d ++
          (writeItems layout level ds ++ (layout.lineBreak closing ++ ']' :: rest))) =
        .ok (.list (done.reverse ++ d :: ds), rest) := by
  induction ds with
  | nil =>
    intro d n done hall hn
    obtain ⟨m, rfl⟩ : ∃ m, n = m + 1 := ⟨n - 1, by omega⟩
    have hstops := stops_writeItems layout level closing [] rest
    rw [items, (hall d List.mem_cons_self).2 layout level _ _ hstops (by omega)]
    dsimp only [bind, Except.bind]
    rw [writeItems, List.nil_append, skip_lineBreak, skip_cons (by decide), List.reverse_cons]
    rfl
  | cons d' ds ih =>
    intro d n done hall hn
    obtain ⟨m, rfl⟩ : ∃ m, n = m + 1 := ⟨n - 1, by omega⟩
    obtain ⟨⟨hd, hreads⟩, htail⟩ := List.forall_mem_cons.mp hall
    have hstops := stops_writeItems layout level closing (d' :: ds) rest
    have hfuel : (writeAt layout level d').length + (writeItems layout level ds).length < m := by
      have hpos := length_writeAt_pos hd layout level
      rw [writeItems] at hn
      simp only [List.length_append, List.length_cons] at hn
      omega
    rw [items, hreads layout level _ _ hstops (by omega)]
    dsimp only [bind, Except.bind]
    rw [writeItems, List.append_assoc, List.append_assoc, List.cons_append, skip_cons (by decide)]
    show items m (d :: done) (skip _) = _
    rw [skip_lineBreak, skip_writeAt (htail d' List.mem_cons_self).1, ih d' m _ htail hfuel,
      List.reverse_cons, List.append_assoc]
    rfl

theorem readsBack_list {ds : List Data} (hall : ∀ d ∈ ds, Writable d ∧ ReadsBack d) :
    ReadsBack (.list ds) := by
  intro layout level n rest _ hn
  cases ds with
  | nil =>
    rw [writeAt] at hn ⊢
    obtain ⟨m, rfl⟩ : ∃ m, n = m + 1 := ⟨n - 1, by have : 2 ≤ n := hn; omega⟩
    rfl
  | cons d ds =>
    rw [writeAt] at hn ⊢
    simp only [List.append_assoc, List.cons_append, List.length_append, List.length_cons] at hn ⊢
    obtain ⟨m, rfl⟩ : ∃ m, n = m + 1 := ⟨n - 1, by omega⟩
    have hd := (hall d List.mem_cons_self).1
    obtain ⟨c, more, hhead, -, hc⟩ := head_writeAt hd layout (level + 1)
    rw [value, skip_lineBreak, skip_writeAt hd]
    split
    · next heq =>
      rw [hhead] at heq
      exact absurd (List.cons.inj heq).1 hc
    · exact items_written layout (level + 1) level rest ds d m [] hall (by omega)

/-! ## Objects -/

theorem stops_writeFields (layout : Layout) (level closing : Nat) (fs : Fields)
    (rest : List Char) :
    Stops (writeFields layout level fs ++ (layout.lineBreak closing ++ '\x7d' :: rest)) := by
  cases fs with
  | nil =>
    rw [writeFields, List.nil_append]
    exact stops_lineBreak layout closing (by decide) rest
  | cons entry fs =>
    rw [writeFields]
    exact stops_cons (by decide) _

theorem writeString_append (s : String) (rest : List Char) :
    writeString s ++ rest = '"' :: (s.toList.flatMap escapeChar ++ '"' :: rest) := by
  rw [writeString, List.append_assoc]
  rfl

theorem length_le_writeString (s : String) : s.toList.length + 2 ≤ (writeString s).length := by
  have hbody : ∀ chars : List Char, chars.length ≤ (chars.flatMap escapeChar).length := by
    intro chars
    induction chars with
    | nil => exact Nat.le_refl _
    | cons c chars ih =>
      obtain ⟨x, more, htext, -⟩ := (spells_escapeChar c).head
      rw [List.flatMap_cons, htext, List.length_append, List.length_cons, List.length_cons]
      omega
  have hlength := hbody s.toList
  rw [writeString, List.length_append, List.length_cons, List.length_singleton]
  omega

/-- One field is read as it was written.  Behind it either the object ends or the next field comes. -/
theorem fields_field {d : Data} (hd : Writable d) (hreads : ReadsBack d) (layout : Layout)
    (level : Nat) (key : String) (done : Fields) {m : Nat} {more : List Char} (hmore : Stops more)
    (hm : (writeString key).length + (writeAt layout level d).length ≤ m) :
    let text := writeString key ++ (':' :: ' ' :: (writeAt layout level d ++ more))
    (∀ rest, skip more = '\x7d' :: rest →
      fields (m + 1) done text = .ok (.object (done.put key d), rest)) ∧
    ∀ rest, skip more = ',' :: rest →
      fields (m + 1) done text = fields m (done.put key d) (skip rest) := by
  intro text
  have hlength := length_le_writeString key
  have hvalue : value m (skip (' ' :: (writeAt layout level d ++ more))) = .ok (d, more) := by
    have hblank : ∀ rest, skip (' ' :: rest) = skip rest := fun _ => rfl
    rw [hblank, skip_writeAt hd, hreads layout level m more hmore (by omega)]
  show (∀ rest, _ → fields (m + 1) done (writeString key ++ _) = _) ∧
    ∀ rest, _ → fields (m + 1) done (writeString key ++ _) = _
  rw [writeString_append, fields, stringTail_written _ _ _ _ _ (by omega)]
  rw [List.reverse_nil, List.nil_append, String.ofList_toList]
  dsimp only [bind, Except.bind]
  rw [skip_cons (by decide)]
  simp only [hvalue]
  constructor
  · intro rest hskip
    rw [hskip]
    rfl
  · intro rest hskip
    rw [hskip]
    rfl

/-- The fields of an object, the first of which is `d` under the name `key`. -/
theorem fields_written (layout : Layout) (level closing : Nat) (rest : List Char) (fs : Fields) :
    ∀ (key : String) (d : Data) (n : Nat) (done : Fields),
      (∀ entry ∈ (key, d) :: fs, Writable entry.2 ∧ ReadsBack entry.2) →
      (done ++ (key, d) :: fs).keys.Nodup →
      (writeString key).length + (writeAt layout level d).length +
        (writeFields layout level fs).length < n →
      fields n done (writeString key ++ (':' :: ' ' :: (writeAt layout level d ++
          (writeFields layout level fs ++ (layout.lineBreak closing ++ '\x7d' :: rest))))) =
        .ok (.object (done ++ (key, d) :: fs), rest) := by
  have hput : ∀ {done fs : Fields} {key : String} {d : Data},
      (done ++ (key, d) :: fs).keys.Nodup → done.put key d = done ++ [(key, d)] := by
    intro done fs key d hk
    refine Fields.put_of_not_mem (fun hmem => ?_) d
    rw [Fields.keys, List.map_append, List.map_cons] at hk
    exact (List.nodup_append.mp hk).2.2 key hmem key List.mem_cons_self rfl
  induction fs with
  | nil =>
    intro key d n done hall hk hn
    obtain ⟨m, rfl⟩ : ∃ m, n = m + 1 := ⟨n - 1, by omega⟩
    obtain ⟨hd, hreads⟩ : Writable d ∧ ReadsBack d := hall (key, d) List.mem_cons_self
    have hstops := stops_writeFields layout level closing [] rest
    have hfield := (fields_field hd hreads layout level key done hstops (m := m) (by omega)).1
    rw [hfield rest, hput hk]
    rw [writeFields, List.nil_append, skip_lineBreak, skip_cons (by decide)]
  | cons entry fs ih =>
    obtain ⟨key', d'⟩ := entry
    intro key d n done hall hk hn
    obtain ⟨m, rfl⟩ : ∃ m, n = m + 1 := ⟨n - 1, by omega⟩
    obtain ⟨hd, hreads⟩ : Writable d ∧ ReadsBack d := hall (key, d) List.mem_cons_self
    have hstops := stops_writeFields layout level closing ((key', d') :: fs) rest
    have hfield := (fields_field hd hreads layout level key done hstops (m := m) (by omega)).2
    have hsplit : done ++ (key, d) :: (key', d') :: fs = (done ++ [(key, d)]) ++ (key', d') :: fs :=
      by simp
    have hquote : ∀ more, skip (writeString key' ++ more) = writeString key' ++ more := by
      intro more
      rw [writeString_append, skip_cons (by decide)]
    have hfuel : (writeString key').length + (writeAt layout level d').length +
        (writeFields layout level fs).length < m := by
      rw [writeFields] at hn
      simp only [List.length_append, List.length_cons] at hn
      omega
    have hcomma : skip (writeFields layout level ((key', d') :: fs) ++
        (layout.lineBreak closing ++ '\x7d' :: rest)) =
          ',' :: (layout.lineBreak level ++ (writeString key' ++ (':' :: ' ' ::
            (writeAt layout level d' ++ (writeFields layout level fs ++
              (layout.lineBreak closing ++ '\x7d' :: rest)))))) := by
      rw [writeFields]
      simp only [List.append_assoc, List.cons_append]
      exact skip_cons rfl _
    rw [hfield _ hcomma, skip_lineBreak, hquote, hput hk, hsplit]
    rw [hsplit] at hk
    exact ih key' d' m _ (fun entry he => hall entry (List.mem_cons_of_mem _ he)) hk hfuel

theorem readsBack_object {fs : Fields} (hk : fs.keys.Nodup)
    (hall : ∀ entry ∈ fs, Writable entry.2 ∧ ReadsBack entry.2) : ReadsBack (.object fs) := by
  intro layout level n rest _ hn
  cases fs with
  | nil =>
    rw [writeAt] at hn ⊢
    obtain ⟨m, rfl⟩ : ∃ m, n = m + 1 := ⟨n - 1, by have : 2 ≤ n := hn; omega⟩
    rfl
  | cons entry fs =>
    obtain ⟨key, d⟩ := entry
    rw [writeAt] at hn ⊢
    simp only [List.append_assoc, List.cons_append, List.length_append, List.length_cons] at hn ⊢
    obtain ⟨m, rfl⟩ : ∃ m, n = m + 1 := ⟨n - 1, by omega⟩
    have hfields := fields_written layout (level + 1) level rest fs key d m [] hall hk (by omega)
    rw [writeString_append] at hfields ⊢
    rw [value, skip_lineBreak, skip_cons (by decide)]
    exact hfields

/-! ## Values -/

/-- **A value is read as it was written**, wherever it stands. -/
theorem Writable.readsBack {d : Data} (hd : Writable d) : ReadsBack d := by
  induction hd with
  | null =>
    intro layout level n rest _ hn
    rw [writeAt] at hn ⊢
    obtain ⟨m, rfl⟩ : ∃ m, n = m + 1 := ⟨n - 1, by have : 4 ≤ n := hn; omega⟩
    rfl
  | bool b =>
    intro layout level n rest _ hn
    have hpos := length_writeAt_pos (.bool b) layout level
    obtain ⟨m, rfl⟩ : ∃ m, n = m + 1 := ⟨n - 1, by omega⟩
    rw [writeAt]
    cases b with
    | true => rfl
    | false => rfl
  | int h =>
    intro layout level n rest hr hn
    have hpos := length_writeAt_pos (.int h) layout level
    obtain ⟨m, rfl⟩ : ∃ m, n = m + 1 := ⟨n - 1, by omega⟩
    rw [writeAt]
    exact value_int h hr m
  | str s =>
    intro layout level n rest _ hn
    have hlength := length_le_writeString s
    rw [writeAt] at hn ⊢
    obtain ⟨m, rfl⟩ : ∃ m, n = m + 1 := ⟨n - 1, by omega⟩
    rw [writeString_append, value, stringTail_written _ _ _ _ _ (by omega), List.reverse_nil,
      List.nil_append, String.ofList_toList]
    rfl
  | list hall ih => exact readsBack_list fun d hd => ⟨hall d hd, ih d hd⟩
  | object hk hall ih => exact readsBack_object hk fun entry he => ⟨hall entry he, ih entry he⟩

/-- Two values that are written alike before what may come behind them are the same value. -/
theorem eq_of_writeAt_append_eq {d d' : Data} (hd : Writable d) (hd' : Writable d')
    (layout : Layout) (level : Nat) {rest rest' : List Char} (hr : Stops rest) (hr' : Stops rest')
    (h : writeAt layout level d ++ rest = writeAt layout level d' ++ rest') : d = d' := by
  have hread := hd.readsBack layout level
    ((writeAt layout level d).length + (writeAt layout level d').length) rest hr (by omega)
  have hread' := hd'.readsBack layout level
    ((writeAt layout level d).length + (writeAt layout level d').length) rest' hr' (by omega)
  rw [h, hread'] at hread
  exact (Prod.mk.inj (Except.ok.inj hread)).1.symm

/-! ## Whole texts -/

/-- **A whole text is read as it was written**, with blanks behind it or without. -/
theorem read_written {d : Data} (hd : Writable d) (layout : Layout) {behind : List Char}
    (hb : Stops behind) (hblank : ∀ c ∈ behind, isBlank c = true) :
    read (writeAt layout 0 d ++ behind) = .ok d := by
  have hvalue := hd.readsBack layout 0 (2 * (writeAt layout 0 d ++ behind).length + 2) behind hb
    (by rw [List.length_append]; omega)
  have hbehind : skip behind = [] := List.dropWhile_eq_nil_iff.mpr hblank
  rw [read, skip_writeAt hd, hvalue]
  · dsimp only [bind, Except.bind]
    rw [hbehind]
  · intro rest heq
    obtain ⟨c, more, hhead, -⟩ := head_writeAt hd layout 0
    have hc := plain_writeAt layout d 0 c (hhead ▸ List.mem_cons_self)
    rw [hhead] at heq
    rw [(List.cons.inj heq).1] at hc
    exact absurd hc (by decide)

end AttributeLint.Json
