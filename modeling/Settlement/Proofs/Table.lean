import Mathlib.Data.List.Nodup
import Settlement.Memory.Transactions

/-!
The shape of a transaction table, and what a conditional write or an insertion does to the row of each
id.
-/

namespace Settlement

abbrev TransactionRecord.payload (r : TransactionRecord) : NewTransaction := r.toNewTransaction

inductive Write where
  | take
  | advance (step : TransactionStep)
  | close (fin : Finalization)
deriving DecidableEq

namespace Write

def allows : Write → TransactionRecord → Bool
  | take, r => !r.status.isTerminal
  | advance step, r => decide (r.step < step) && !r.status.isTerminal
  | close _, r => !r.status.isTerminal

def apply (now : Instant) : Write → TransactionRecord → TransactionRecord
  | take, r => { r with status := .processing, attempts := r.attempts + 1, updatedAt := now }
  | advance step, r => { r with step, updatedAt := now }
  | close fin, r =>
    { r with
      status := fin.status, compensation := fin.compensation, errorMessage := fin.errorMessage,
      updatedAt := now }

@[simp] theorem apply_id (now : Instant) (w : Write) (r : TransactionRecord) :
    (w.apply now r).id = r.id := by
  cases w <;> rfl

@[simp] theorem apply_payload (now : Instant) (w : Write) (r : TransactionRecord) :
    (w.apply now r).payload = r.payload := by
  cases w <;> rfl

/-- No write touches a terminal record. -/
theorem open_of_allows {w : Write} {r : TransactionRecord} (h : w.allows r) :
    r.status.isTerminal = false := by
  cases w <;> simp_all [allows]

end Write

namespace TransactionTable

/-- Ids and keys are unique, the index knows every key, and the next id is a new one. -/
structure Sound (t : TransactionTable) : Prop where
  ids : (t.rows.map (·.id)).Nodup
  bound : ∀ r ∈ t.rows, r.id ≤ t.rows.length
  once : (t.rows.map (·.key)).Nodup
  index : t.keys = t.rows.map fun r => (r.key, r.id)

theorem sound_empty : Sound {} := ⟨by simp, by simp, by simp, rfl⟩

theorem mem_of_row? {t : TransactionTable} {id : TransactionId} {r : TransactionRecord}
    (h : t.row? id = some r) : r ∈ t.rows ∧ r.id = id :=
  ⟨List.mem_of_find?_eq_some h, by simpa using List.find?_some h⟩

theorem Sound.row?_of_mem {t : TransactionTable} (hs : t.Sound) {r : TransactionRecord}
    (hr : r ∈ t.rows) : t.row? r.id = some r := by
  cases hf : t.row? r.id with
  | none => exact absurd (List.find?_eq_none.mp hf r hr) (by simp)
  | some q =>
    obtain ⟨hq, he⟩ := mem_of_row? hf
    rw [List.inj_on_of_nodup_map hs.ids hq hr he]

/-- A stored record is found by its key. -/
theorem Sound.rowByKey?_of_row? {t : TransactionTable} (hs : t.Sound)
    {id : TransactionId} {r : TransactionRecord} (hr : t.row? id = some r) :
    t.rowByKey? r.key = some r := by
  obtain ⟨hm, rfl⟩ := mem_of_row? hr
  have hl : ∀ rows : List TransactionRecord, (rows.map (·.key)).Nodup → r ∈ rows →
      (rows.map fun r => (r.key, r.id)).lookup r.key = some r.id := by
    intro rows hn hm
    induction rows with
    | nil => cases hm
    | cons x rows ih =>
      rw [List.map_cons, List.nodup_cons] at hn
      rcases List.mem_cons.mp hm with rfl | hm
      · simp
      · have hne : r.key ≠ x.key := fun he => hn.1 (he ▸ List.mem_map_of_mem hm)
        rw [List.map_cons, List.lookup_cons, beq_false_of_ne hne]
        exact ih hn.2 hm
  rw [rowByKey?, hs.index, hl t.rows hs.once hm, Option.bind_some, hr]

inductive Written (t : TransactionTable) (id : TransactionId) (w : Write) :
    Bool → TransactionTable → Prop
  | written {r : TransactionRecord} {t' : TransactionTable} (now : Instant)
      (row : t.row? id = some r) (allowed : w.allows r)
      (rows : t'.rows = t.rows.map fun r => if r.id = id then w.apply now r else r)
      (keys : t'.keys = t.keys) : Written t id w true t'
  | refused (barred : ∀ r, t.row? id = some r → w.allows r = false) : Written t id w false t

theorem update_written (t : TransactionTable) (id : TransactionId) (w : Write) (now : Instant) :
    t.Written id w (t.update id w.allows (w.apply now)).1 (t.update id w.allows (w.apply now)).2 := by
  unfold update
  cases hr : t.row? id with
  | none => exact .refused (by simp [hr])
  | some r =>
    by_cases ha : w.allows r = true
    · simp only [ha, if_true]
      exact .written now hr ha rfl rfl
    · simp only [ha]
      refine .refused fun q hq => ?_
      rw [hr, Option.some.injEq] at hq
      subst q
      simpa using ha

section

variable {t t' : TransactionTable} {id : TransactionId} {w : Write} {now : Instant} {done : Bool}

theorem row?_map (hr : t'.rows = t.rows.map fun r => if r.id = id then w.apply now r else r)
    (other : TransactionId) :
    t'.row? other = (t.row? other).map fun r => if r.id = id then w.apply now r else r := by
  have hp : ((fun r : TransactionRecord => r.id == other) ∘
      fun r => if r.id = id then w.apply now r else r) = fun r => r.id == other := by
    funext r
    simp only [Function.comp_apply]
    split
    · rw [Write.apply_id]
    · rfl
  unfold row?
  rw [hr, List.find?_map, hp]

theorem update_allowed {r : TransactionRecord} (hr : t.row? id = some r) (ha : w.allows r = true)
    (now : Instant) : (t.update id w.allows (w.apply now)).1 = true ∧
      (t.update id w.allows (w.apply now)).2.row? id = some (w.apply now r) := by
  have hu : t.update id w.allows (w.apply now) =
      (true, { t with rows := t.rows.map fun r => if r.id = id then w.apply now r else r }) := by
    simp [update, hr, ha]
  rw [hu]
  refine ⟨rfl, ?_⟩
  rw [row?_map rfl, hr, Option.map_some, if_pos (mem_of_row? hr).2]

theorem update_barred {r : TransactionRecord} (hr : t.row? id = some r) (ha : w.allows r = false)
    (now : Instant) : t.update id w.allows (w.apply now) = (false, t) := by
  simp [update, hr, ha]

/-- A write leaves the rows of other ids alone. -/
theorem Written.row?_ne (h : t.Written id w done t') {other : TransactionId} (hne : other ≠ id) :
    t'.row? other = t.row? other := by
  cases h with
  | refused => rfl
  | written now row allowed rows =>
    rw [row?_map rows]
    cases hr : t.row? other with
    | none => rfl
    | some q => rw [Option.map_some, if_neg ((mem_of_row? hr).2 ▸ hne)]

/-- What no write changes in a row, no write changes in the list of rows. -/
theorem map_rows {β : Type} (hr : t'.rows = t.rows.map fun r => if r.id = id then w.apply now r else r)
    (f : TransactionRecord → β) (hf : ∀ r, f (w.apply now r) = f r) :
    t'.rows.map f = t.rows.map f := by
  rw [hr, List.map_map]
  refine List.map_congr_left fun r _ => ?_
  simp only [Function.comp_apply]
  split
  · exact hf r
  · rfl

theorem Sound.write (hs : t.Sound) (h : t.Written id w done t') : t'.Sound := by
  cases h with
  | refused => exact hs
  | written now row allowed rows keys =>
    have hi : t'.rows.map (·.id) = t.rows.map (·.id) := map_rows rows _ (Write.apply_id now w)
    have hk : t'.rows.map (·.key) = t.rows.map (·.key) :=
      map_rows rows _ fun r => congrArg NewTransaction.key (Write.apply_payload now w r)
    refine ⟨hi ▸ hs.ids, ?_, hk ▸ hs.once, ?_⟩
    · intro r hr
      have hm : r.id ∈ t'.rows.map (·.id) := List.mem_map_of_mem hr
      obtain ⟨q, hq, he⟩ := List.mem_map.mp (hi ▸ hm)
      rw [← he, rows, List.length_map]
      exact hs.bound q hq
    · rw [keys, hs.index]
      refine (map_rows rows (fun r => (r.key, r.id)) fun r => ?_).symm
      exact Prod.ext (congrArg NewTransaction.key (Write.apply_payload now w r))
        (Write.apply_id now w r)

/-- How an insertion ends. A new row comes last, under the next id, which had no row. -/
inductive Inserted (t : TransactionTable) (new : NewTransaction) :
    InsertOutcome → TransactionTable → Prop
  | inserted {r : TransactionRecord} {t' : TransactionTable} (now : Instant)
      (row : r = fresh new r.id now) (free : t.row? r.id = none) (rows : t'.rows = t.rows ++ [r])
      (sound : t'.Sound) (next : r.id = t.rows.length + 1) : Inserted t new (.inserted r) t'
  | duplicate : Inserted t new .duplicateKey t

theorem Sound.unused_id (hs : t.Sound) : ∀ r ∈ t.rows, r.id ≠ (t.rows.length : Int) + 1 := by
  intro r hr
  exact Int.ne_of_lt (Int.lt_add_one_of_le (hs.bound r hr))

theorem Sound.unused_key (hs : t.Sound) {key : String} (hk : (t.keys.lookup key).isSome = false) :
    ∀ r ∈ t.rows, r.key ≠ key := by
  intro r hr he
  rw [Option.isSome_eq_false_iff, Option.isNone_iff_eq_none, List.lookup_eq_none_iff, hs.index] at hk
  exact absurd (hk _ (List.mem_map_of_mem hr)) (by simp [he])

theorem Sound.inserted (hs : t.Sound) (new : NewTransaction) (now : Instant) :
    t.Inserted new (t.insert new now).1 (t.insert new now).2 := by
  unfold insert
  split
  · exact .duplicate
  next hk =>
    have hid := hs.unused_id
    have hkey := hs.unused_key (Bool.not_eq_true _ ▸ hk)
    refine .inserted now rfl (List.find?_eq_none.mpr fun r hr => by simpa [fresh] using hid r hr) rfl ?_
      rfl
    refine ⟨?_, ?_, ?_, by simp [hs.index, fresh]⟩
    · simpa [List.nodup_append, hs.ids, fresh] using hid
    · intro r hr
      rcases List.mem_append.mp hr with hr | hr
      · simpa using Int.le_trans (hs.bound r hr) (Int.le_add_of_nonneg_right Int.one_nonneg)
      · cases List.mem_singleton.mp hr
        simp [fresh]
    · simpa [List.nodup_append, hs.once, fresh] using hkey

theorem answer_sumSpending (t : TransactionTable) (now : Instant) (user : UserId) (since : Instant) :
    (answer now (.sumSpending user since) t).2 = t := by
  simp only [answer]
  split <;> rfl

/-- Rows stay where they are when another one is inserted. -/
theorem row?_append (hr : t'.rows = t.rows ++ [new]) (other : TransactionId) :
    t'.row? other = (t.row? other).or (if new.id = other then some new else none) := by
  simp [row?, hr, List.find?_append, List.find?_singleton]

end
end TransactionTable
end Settlement
