import AttributeLint.Data.Basic

/-!
# Fields of objects

A field is looked up by going through the fields in their order; the first of that name counts, and
one that is missing reads as null.  Where no name occurs twice, the order does not matter
(`get?_perm`, `field_perm`).
-/

namespace AttributeLint

namespace Fields

theorem keys_cons (k : String) (d : Data) (rest : Fields) :
    keys ((k, d) :: rest) = k :: keys rest := rfl

theorem keys_map (f : Data → Data) (fields : Fields) :
    keys (fields.map fun entry => (entry.1, f entry.2)) = fields.keys := by
  simp [keys]

theorem mem_keys_put {fields : Fields} {key other : String} {d : Data} :
    other ∈ (fields.put key d).keys ↔ other = key ∨ other ∈ fields.keys := by
  induction fields with
  | nil => simp [put, keys]
  | cons entry rest ih =>
    obtain ⟨k, old⟩ := entry
    rw [put]
    by_cases hk : k = key
    · rw [if_pos (beq_iff_eq.mpr hk), keys_cons, keys_cons, List.mem_cons, hk]
      simp
    · rw [if_neg (by simpa using hk), keys_cons, keys_cons, List.mem_cons, List.mem_cons, ih]
      exact or_left_comm

/-- A new field goes to the end. -/
theorem put_of_not_mem {fields : Fields} {key : String} (h : key ∉ fields.keys) (d : Data) :
    fields.put key d = fields ++ [(key, d)] := by
  induction fields with
  | nil => rfl
  | cons entry rest ih =>
    obtain ⟨k, old⟩ := entry
    rw [keys_cons, List.mem_cons, not_or] at h
    rw [put, if_neg (by simpa using Ne.symm h.1), ih h.2, List.cons_append]

theorem get?_cons (k : String) (d : Data) (rest : Fields) (key : String) :
    get? ((k, d) :: rest) key = if k = key then some d else get? rest key := by
  rw [get?, get?, List.lookup_cons]
  by_cases hk : k = key
  · rw [if_pos hk, hk, BEq.rfl]
  · rw [if_neg hk, beq_eq_false_iff_ne.mpr (Ne.symm hk)]

theorem mem_of_get? {fields : Fields} {key : String} {d : Data} (h : fields.get? key = some d) :
    (key, d) ∈ fields := by
  induction fields with
  | nil => cases h
  | cons entry rest ih =>
    obtain ⟨k, e⟩ := entry
    rw [get?_cons] at h
    split at h
    · next hk =>
      cases h
      rw [hk]
      exact List.mem_cons_self
    · exact List.mem_cons_of_mem _ (ih h)

/-- Where no name occurs twice, the order of the fields does not matter. -/
theorem get?_perm {fields fields' : Fields} (hp : fields.Perm fields') (hn : fields.keys.Nodup)
    (key : String) : fields.get? key = fields'.get? key := by
  induction hp with
  | nil => rfl
  | cons entry _ ih =>
    obtain ⟨k, d⟩ := entry
    rw [get?_cons, get?_cons, ih (List.nodup_cons.mp hn).2]
  | swap entry other rest =>
    obtain ⟨k, d⟩ := entry
    obtain ⟨l, e⟩ := other
    have hne : l ≠ k := by
      rintro rfl
      exact (List.nodup_cons.mp hn).1 List.mem_cons_self
    simp only [get?_cons]
    by_cases hk : k = key
    · rw [if_neg (fun h => hne (h.trans hk.symm)), if_pos hk, if_pos hk]
    · rw [if_neg hk, if_neg hk]
  | trans hp _ ih ih' =>
    rw [ih hn, ih' ((hp.map _).nodup hn)]

end Fields

namespace Data

theorem field_nil (key : String) : (object []).field key = null := rfl

theorem field_cons (k : String) (d : Data) (rest : Fields) (key : String) :
    (object ((k, d) :: rest)).field key = if k = key then d else (object rest).field key := by
  rw [field, field, Fields.get?_cons]
  split <;> rfl

theorem field_map (f : Data → Data) (hf : f .null = .null) (fields : Fields) (key : String) :
    (object (fields.map fun entry => (entry.1, f entry.2))).field key =
      f ((object fields).field key) := by
  induction fields with
  | nil => exact hf.symm
  | cons entry rest ih =>
    obtain ⟨k, d⟩ := entry
    rw [List.map_cons, field_cons, field_cons, ih]
    split <;> rfl

theorem field_put (fields : Fields) (key : String) (d : Data) (other : String) :
    (object (fields.put key d)).field other =
      if key = other then d else (object fields).field other := by
  induction fields with
  | nil => rw [Fields.put, field_cons]
  | cons entry rest ih =>
    obtain ⟨k, old⟩ := entry
    rw [Fields.put]
    by_cases hk : k = key
    · rw [if_pos (beq_iff_eq.mpr hk), field_cons, field_cons, hk]
      split <;> rfl
    · rw [if_neg (by simpa using hk), field_cons, field_cons, ih]
      by_cases ho : k = other
      · rw [if_pos ho, if_pos ho, if_neg (fun h => hk (ho.trans h.symm))]
      · rw [if_neg ho, if_neg ho]

theorem field_without (fields : Fields) (key other : String) :
    (object (fields.filter (·.1 != key))).field other =
      if key = other then null else (object fields).field other := by
  induction fields with
  | nil => split <;> rfl
  | cons entry rest ih =>
    obtain ⟨k, d⟩ := entry
    by_cases h : k = key
    · rw [List.filter_cons_of_neg (by simpa using h), ih, field_cons, h]
      split <;> rfl
    · rw [List.filter_cons_of_pos (by simpa using h), field_cons, field_cons, ih]
      by_cases ho : k = other
      · rw [if_pos ho, if_pos ho, if_neg (fun he => h (ho.trans he.symm))]
      · rw [if_neg ho, if_neg ho]

theorem field_perm {fields fields' : Fields} (hp : fields.Perm fields') (hn : fields.keys.Nodup)
    (key : String) : (object fields).field key = (object fields').field key := by
  rw [field, field, Fields.get?_perm hp hn]

end Data

end AttributeLint
