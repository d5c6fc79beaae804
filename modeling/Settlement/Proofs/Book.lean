import Settlement.Memory.Book

/-!
What one mutation does to a book: it adds one row for an operation that was not applied to the account
before, or it adds nothing.
-/

namespace Settlement

/-- What a ledger applies at most one mutation for. -/
def AppliedRow.slot (r : AppliedRow) : OperationId × AccountId := (r.operation, r.account)

namespace Book

theorem row?_isSome (b : Book) {operation : OperationId} {account : AccountId} :
    (b.row? operation account).isSome ↔
      (operation, account) ∈ b.applied.map AppliedRow.slot := by
  simp only [row?, List.find?_isSome, Bool.and_eq_true, beq_iff_eq, List.mem_map,
    AppliedRow.slot, Prod.mk.injEq]

@[simp] theorem closeAccount_applied (b : Book) (id : AccountId) :
    (b.closeAccount id).2.applied = b.applied := by
  unfold closeAccount
  split <;> rfl

theorem account?_eq_some {b : Book} {id : AccountId} {account : Account} :
    b.account? id = some account ↔ account.id = id ∧
      ∃ before after, b.accounts = before ++ account :: after ∧ ∀ other ∈ before, other.id ≠ id := by
  simp [account?, List.find?_eq_some_iff_append]

theorem lock_iff {b : Book} {id : AccountId} {account : Account} :
    b.lock id = .ok account ↔ b.account? id = some account ∧ id ∉ b.held := by
  unfold lock
  split
  next hf => simp [hf]
  next found hf =>
    split
    next hheld => simp [hheld]
    next hheld => simp [hf, hheld]

/-- Who holds the lock has the account. -/
theorem account?_of_lock {b : Book} {id : AccountId} {account : Account}
    (h : b.lock id = .ok account) : b.account? id = some account := (lock_iff.mp h).1

theorem lock_id {b : Book} {id : AccountId} {account : Account} (h : b.lock id = .ok account) :
    account.id = id := (account?_eq_some.mp (account?_of_lock h)).1

theorem lock_mem {b : Book} {id : AccountId} {account : Account} (h : b.lock id = .ok account) :
    account ∈ b.accounts :=
  List.mem_of_find?_eq_some (account?_of_lock h)

inductive Mutated (b : Book) (direction : Direction) (id : AccountId) (amount : Decimal)
    (operation : OperationId) : Flow.Outcome (Except LedgerError MutationOutcome) → Book → Prop
  | applied {after : Book} (fresh : (operation, id) ∉ b.applied.map AppliedRow.slot)
      (rows : after.applied = b.applied ++ [⟨operation, id, direction.delta amount⟩]) :
      Mutated b direction id amount operation (.value (.ok .applied)) after
  | replayed (known : (operation, id) ∈ b.applied.map AppliedRow.slot) :
      Mutated b direction id amount operation (.value (.ok .replayed)) b
  | refused (e : LedgerError) : Mutated b direction id amount operation (.value (.error e)) b
  | broken (message : String) : Mutated b direction id amount operation (.panic message) b

theorem mutate_mutated (b : Book) (direction : Direction) (id : AccountId) (amount : Decimal)
    (operation : OperationId) :
    b.Mutated direction id amount operation (b.mutate direction id amount operation).1
      (b.mutate direction id amount operation).2 := by
  unfold mutate
  split
  · exact .refused _
  split
  · exact .refused _
  split
  next hk => exact .replayed (b.row?_isSome.mp hk)
  next hn =>
    split
    · exact .refused _
    split
    · exact .broken _
    · exact .applied (mt b.row?_isSome.mpr hn) rfl

section

variable {b b' : Book} {direction : Direction} {id : AccountId} {amount : Decimal}
  {operation : OperationId}

/-- The mutation was applied, and asked for again it is only replayed. -/
def Replays (b : Book) (direction : Direction) (id : AccountId) (amount : Decimal)
    (operation : OperationId) : Prop :=
  b.mutate direction id amount operation = (.value (.ok .replayed), b)

theorem replays_iff : b.Replays direction id amount operation ↔
    ¬amount ≤ Decimal.zero ∧ (∃ account, b.lock id = .ok account) ∧
      (b.row? operation id).isSome = true := by
  unfold Replays mutate
  constructor
  · intro h
    split at h
    · cases h
    next ha =>
      split at h
      · cases h
      next account hl =>
        split at h
        next hr => exact ⟨ha, ⟨account, hl⟩, hr⟩
        next =>
          split at h
          · cases h
          · split at h <;> cases h
  · rintro ⟨ha, ⟨account, hl⟩, hr⟩
    rw [if_neg ha, hl]
    simp only [hr, if_true]

theorem put_ids (new : Account) : (b.put new).accounts.map (·.id) = b.accounts.map (·.id) := by
  unfold put
  rw [List.map_map]
  refine List.map_congr_left fun x _ => ?_
  simp only [Function.comp_apply]
  split
  next hi => exact hi.symm
  next => rfl

theorem account?_put (new : Account) : (b.put new).account? id =
    (b.account? id).map fun a => if a.id = new.id then new else a := by
  have hp : ((fun a : Account => a.id == id) ∘ fun a => if a.id = new.id then new else a) =
      fun a => a.id == id := by
    funext a
    simp only [Function.comp_apply]
    split
    next hi => rw [hi]
    next => rfl
  unfold account? put
  rw [List.find?_map, hp]

theorem lock_put (new : Account) (h : ∃ account, b.lock id = .ok account) :
    ∃ account, (b.put new).lock id = .ok account := by
  obtain ⟨account, h⟩ := h
  unfold lock at h ⊢
  rw [account?_put]
  split at h
  · cases h
  next found hf =>
    split at h
    · cases h
    next hh =>
      have hh' : id ∉ (b.put new).held := hh
      simp only [hf, Option.map_some, hh', if_false]
      exact ⟨_, rfl⟩

/-- A mutation that is granted would be replayed from then on, and so would those before it. -/
theorem mutate_granted {outcome : MutationOutcome}
    (h : b.mutate direction id amount operation = (.value (.ok outcome), b')) :
    b'.Replays direction id amount operation ∧
      ∀ {d i m o}, b.Replays d i m o → b'.Replays d i m o := by
  have hm := h
  unfold mutate at hm
  split at hm
  · cases hm
  next hpos =>
    split at hm
    · cases hm
    next account hl =>
      split at hm
      next hr =>
        cases hm
        exact ⟨replays_iff.mpr ⟨hpos, ⟨account, hl⟩, hr⟩, fun hp => hp⟩
      next =>
        split at hm
        · cases hm
        · split at hm
          · cases hm
          next balance _ =>
            cases hm
            refine ⟨replays_iff.mpr ⟨hpos, lock_put _ ⟨account, hl⟩, ?_⟩, fun hp => ?_⟩
            · simp [row?, List.find?_append]
            · obtain ⟨ha, hk, hr⟩ := replays_iff.mp hp
              refine replays_iff.mpr ⟨ha, lock_put _ hk, ?_⟩
              have hput : (b.put { account with balance }).applied = b.applied := rfl
              unfold row? at hr ⊢
              rw [List.find?_append, Option.isSome_or, hput, hr, Bool.true_or]

end

def rowsOf (b : Book) (id : TransactionId) : List AppliedRow :=
  b.applied.filter (·.operation.transaction == id)

def slotsOf (b : Book) (id : TransactionId) : List (OperationId × AccountId) :=
  (b.rowsOf id).map AppliedRow.slot

theorem mem_rowsOf {b : Book} {id : TransactionId} :
    row ∈ b.rowsOf id ↔ row ∈ b.applied ∧ row.operation.transaction = id := by
  simp [rowsOf]

theorem rowsOf_applied {b after : Book} {row : AppliedRow} (h : after.applied = b.applied ++ [row])
    (id : TransactionId) :
    after.rowsOf id =
      if row.operation.transaction = id then b.rowsOf id ++ [row] else b.rowsOf id := by
  unfold rowsOf
  rw [h, List.filter_append]
  split
  next hi => simp [hi]
  next hi => simp [hi]

end Book

/-- What happens to a book besides the calls of the service. -/
inductive Upkeep where
  | openAccount (owner : UserId) (currency : Currency) (balance : Decimal)
  | closeAccount (account : AccountId)
  /-- Somebody else takes the lock of an account. -/
  | hold (account : AccountId)
  | release (account : AccountId)

namespace Upkeep

def apply (b : Book) : Upkeep → Book
  | openAccount owner currency balance => (b.openAccount owner currency balance).2
  | closeAccount account => (b.closeAccount account).2
  | hold account => { b with held := account :: b.held }
  | release account => { b with held := b.held.erase account }

/-- Upkeep moves no money. -/
@[simp] theorem apply_applied (b : Book) (u : Upkeep) : (u.apply b).applied = b.applied := by
  cases u with
  | closeAccount account => exact b.closeAccount_applied account
  | openAccount | hold | release => rfl

end Upkeep

end Settlement
