import Settlement.Proofs.Lifecycle

/-!
The rows that wait for a sweep. A selection takes the ones that have waited longest, the lower id first
among those that have waited as long.
-/

namespace Settlement

/-- The one record was touched before the other, or at the same time and has the lower id. -/
def TransactionRecord.Precedes (a b : TransactionRecord) : Prop :=
  a.updatedAt < b.updatedAt ∨ (a.updatedAt = b.updatedAt ∧ a.id < b.id)

/-- Sorting by a key leaves equals in their order. -/
theorem pairwise_mergeSort_key {β : Type} {l : List β} {R : β → β → Prop} (key : β → Int)
    (hl : l.Pairwise R) : (l.mergeSort fun a b => decide (key a ≤ key b)).Pairwise
      fun a b => key a < key b ∨ (key a = key b ∧ R a b) := by
  have htrans : ∀ a b c : β, decide (key a ≤ key b) = true → decide (key b ≤ key c) = true →
      decide (key a ≤ key c) = true := by
    intro a b c hab hbc
    rw [decide_eq_true_eq] at *
    exact Int.le_trans hab hbc
  have htotal : ∀ a b : β, (decide (key a ≤ key b) || decide (key b ≤ key a)) = true := by
    intro a b
    simpa using Int.le_total (key a) (key b)
  refine List.pairwise_iff_forall_sublist.mpr fun {a b} hab => ?_
  have hle := List.pairwise_iff_forall_sublist.mp (List.pairwise_mergeSort htrans htotal l) hab
  rw [decide_eq_true_eq] at hle
  rcases Int.lt_or_eq_of_le hle with hlt | heq
  · exact .inl hlt
  -- The elements with the key of the two are the same in both lists, and in the same order.
  have hkept : (l.filter fun c => key c = key a).Sublist
      (l.mergeSort fun a b => decide (key a ≤ key b)) := by
    refine List.sublist_mergeSort htrans htotal ?_ List.filter_sublist
    refine List.pairwise_of_forall_mem_list fun c hc d hd => ?_
    have hck : key c = key a := by simpa using (List.mem_filter.mp hc).2
    have hdk : key d = key a := by simpa using (List.mem_filter.mp hd).2
    rw [hck, hdk, decide_eq_true_eq]
  have hsame : (l.filter fun c => key c = key a) =
      (l.mergeSort fun a b => decide (key a ≤ key b)).filter fun c => key c = key a := by
    have hsub := hkept.filter fun c => key c = key a
    simp only [List.filter_filter, Bool.and_self] at hsub
    exact hsub.eq_of_length ((List.mergeSort_perm l _).symm.filter _).length_eq
  have hpair := hab.filter fun c => key c = key a
  rw [← hsame] at hpair
  simp only [heq, List.filter_cons, decide_true, if_true, List.filter_nil] at hpair
  exact .inr ⟨heq, List.pairwise_iff_forall_sublist.mp hl (hpair.trans List.filter_sublist)⟩

namespace TransactionTable

def waiting (t : TransactionTable) (cutoff : Instant) : List TransactionRecord :=
  t.rows.filter fun r => !r.status.isTerminal && decide (r.updatedAt < cutoff)

section

variable {t : TransactionTable} {cutoff : Instant} {r : TransactionRecord}

theorem mem_waiting : r ∈ t.waiting cutoff ↔
    r ∈ t.rows ∧ r.status.isTerminal = false ∧ r.updatedAt < cutoff := by
  simp [waiting]

theorem Sound.waiting_ids (hs : t.Sound) (cutoff : Instant) :
    ((t.waiting cutoff).map (·.id)).Nodup :=
  hs.ids.sublist (List.filter_sublist.map _)

/-- A selection is the front of the rows that wait. They stand in the order of their last writes, and
equals in the order of the table. -/
theorem findStuck_front {R : TransactionRecord → TransactionRecord → Prop} (h : t.rows.Pairwise R)
    (cutoff : Instant) : ∃ queue : List TransactionRecord, queue.Perm (t.waiting cutoff) ∧
      queue.Pairwise (fun a b => a.updatedAt < b.updatedAt ∨ (a.updatedAt = b.updatedAt ∧ R a b)) ∧
        ∀ limit, t.findStuck cutoff limit = queue.take limit :=
  ⟨_, List.mergeSort_perm _ _, pairwise_mergeSort_key (·.updatedAt) (h.filter _), fun _ => rfl⟩

theorem mem_findStuck {limit : Nat} (h : r ∈ t.findStuck cutoff limit) : r ∈ t.waiting cutoff :=
  List.mem_mergeSort.mp (List.mem_of_mem_take h)

theorem Sound.findStuck_ids (hs : t.Sound) (cutoff : Instant) (limit : Nat) :
    ((t.findStuck cutoff limit).map (·.id)).Nodup := by
  refine List.Sublist.nodup ((List.take_sublist limit _).map _) ?_
  exact ((List.mergeSort_perm _ _).map _).nodup_iff.mpr (hs.waiting_ids cutoff)

/-- A selection takes all rows that wait since some time, or it is full of such rows. -/
theorem findStuck_oldest {cut : Instant} (hle : cut ≤ cutoff) (limit : Nat) :
    (∀ r ∈ t.waiting cut, r ∈ t.findStuck cutoff limit) ∨
      ((t.findStuck cutoff limit).length = limit ∧
        ∀ r ∈ t.findStuck cutoff limit, r ∈ t.waiting cut) := by
  obtain ⟨queue, hwaiting, horder, hfront⟩ := findStuck_front (t := t)
    (List.pairwise_of_forall fun _ _ => trivial) cutoff
  rw [hfront]
  refine or_iff_not_imp_left.mpr fun hall => ?_
  obtain ⟨r, hr, hleft⟩ : ∃ r ∈ t.waiting cut, r ∉ queue.take limit := by
    simpa using hall
  obtain ⟨hrow, hopen, hlt⟩ := mem_waiting.mp hr
  -- A row of the old ones was left behind, so whatever was taken is at least as old.
  have hqueue : r ∈ queue :=
    hwaiting.mem_iff.mpr (mem_waiting.mpr ⟨hrow, hopen, Int.lt_of_lt_of_le hlt hle⟩)
  rw [← List.take_append_drop limit queue, List.mem_append] at hqueue
  have hdrop := hqueue.resolve_left hleft
  refine ⟨?_, fun q hq => ?_⟩
  · have hlength := List.length_pos_of_mem hdrop
    rw [List.length_drop] at hlength
    exact List.length_take_of_le (Nat.le_of_lt (Nat.lt_of_sub_pos hlength))
  · rw [← List.take_append_drop limit queue] at horder
    have hqr := (List.pairwise_append.mp horder).2.2 q hq r hdrop
    obtain ⟨hqrow, hqopen, -⟩ := mem_waiting.mp (hwaiting.mem_iff.mp (List.mem_of_mem_take hq))
    refine mem_waiting.mpr ⟨hqrow, hqopen, Int.lt_of_le_of_lt ?_ hlt⟩
    exact hqr.elim Int.le_of_lt fun heq => Int.le_of_eq heq.1

/-- What may be selected: the front of the rows that wait, in some order of their last writes. -/
def Selects (t : TransactionTable) (cutoff : Instant) (limit : Nat)
    (batch : List TransactionRecord) : Prop :=
  ∃ queue : List TransactionRecord, queue.Perm (t.waiting cutoff) ∧
    (queue.Pairwise fun a b => a.updatedAt ≤ b.updatedAt) ∧ batch = queue.take limit

theorem selects_of_perm {rows : List TransactionRecord} (h : rows.Perm (t.waiting cutoff))
    (limit : Nat) : t.Selects cutoff limit
      ((rows.mergeSort fun a b => decide (a.updatedAt ≤ b.updatedAt)).take limit) := by
  refine ⟨_, (List.mergeSort_perm _ _).trans h, ?_, rfl⟩
  have hsorted := pairwise_mergeSort_key (·.updatedAt)
    (List.pairwise_of_forall (l := rows) (R := fun _ _ => True) fun _ _ => trivial)
  exact hsorted.imp fun hab => hab.elim Int.le_of_lt fun heq => Int.le_of_eq heq.1

theorem selects_findStuck (t : TransactionTable) (cutoff : Instant) (limit : Nat) :
    t.Selects cutoff limit (t.findStuck cutoff limit) :=
  selects_of_perm (.refl _) limit

theorem Selects.mem_waiting {limit : Nat} {batch : List TransactionRecord}
    (h : t.Selects cutoff limit batch) (hr : r ∈ batch) : r ∈ t.waiting cutoff := by
  obtain ⟨queue, hperm, -, rfl⟩ := h
  exact hperm.mem_iff.mp (List.mem_of_mem_take hr)

/-- Where no two rows were touched at the same instant, there is one selection. -/
theorem Selects.eq_findStuck {limit : Nat} {batch : List TransactionRecord}
    (h : t.Selects cutoff limit batch) (hd : ((t.waiting cutoff).map (·.updatedAt)).Nodup) :
    batch = t.findStuck cutoff limit := by
  obtain ⟨queue, hperm, horder, rfl⟩ := h
  obtain ⟨queue', hperm', horder', hfront⟩ := selects_findStuck t cutoff limit
  have heq : queue = queue' := by
    refine List.Perm.eq_of_pairwise (fun a b ha hb hab hba => ?_) horder horder'
      (hperm.trans hperm'.symm)
    exact List.inj_on_of_nodup_map hd (hperm.mem_iff.mp ha) (hperm'.mem_iff.mp hb)
      (Int.le_antisymm hab hba)
  rw [hfront, heq]

/-- Rows that wait in the order of the table are selected in it. -/
theorem findStuck_of_sorted (h : (t.waiting cutoff).Pairwise fun a b => a.updatedAt ≤ b.updatedAt)
    (limit : Nat) : t.findStuck cutoff limit = (t.waiting cutoff).take limit := by
  have hsort : (t.waiting cutoff).mergeSort (fun a b => decide (a.updatedAt ≤ b.updatedAt)) =
      t.waiting cutoff := List.mergeSort_of_pairwise (h.imp fun hle => decide_eq_true hle)
  rw [findStuck, ← waiting, hsort]

end

def serve (now : Instant) : (call : StoreCall) → TransactionTable →
    Option (call.Answer × TransactionTable)
  | .findStuck cutoff limit, t =>
    if (t.waiting cutoff).Pairwise fun a b => a.updatedAt ≤ b.updatedAt then
      some (.ok ((t.waiting cutoff).take limit), t)
    else none
  | call, t =>
    match answer now call t with
    | (.value a, t) => some (a, t)
    | (.panic _, _) => none

theorem answer_of_serve {call : StoreCall} {now : Instant} {t t' : TransactionTable}
    {a : call.Answer} (h : serve now call t = some (a, t')) : answer now call t = (.value a, t') := by
  unfold serve at h
  split at h
  next cutoff limit =>
    split at h
    next hsorted =>
      cases h
      rw [answer, findStuck_of_sorted hsorted]
    next => cases h
  next =>
    split at h
    next heq =>
      cases h
      exact heq
    next => cases h

def waitingPair : TransactionTable where
  rows := [
    ⟨⟨1, some 1, some 2, .one, .one, .one, .usd, .transfer, some 1, "a"⟩, 1, .processing, .debitDone,
      .none, 1, none, 0, 3⟩,
    ⟨⟨1, none, some 1, .one, .one, .one, .usd, .deposit, none, "b"⟩, 2, .created, .none, .none, 0, none,
      0, 5⟩]
  keys := [("a", 1), ("b", 2)]

theorem sound_waitingPair : waitingPair.Sound := ⟨by decide, by decide, by decide, rfl⟩

end TransactionTable

def lockedLedger : (call : LedgerCall) → call.Answer
  | .getAccount id => .error (.accountNotFound id)
  | .mutate _ id _ _ => if id = 2 then .error (.lockConflict 2) else .ok .applied

end Settlement
