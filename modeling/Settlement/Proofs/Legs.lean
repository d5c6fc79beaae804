import Settlement.Proofs.Book
import Settlement.Proofs.Table

/-!
The legs of a transaction: the mutations it may make, each with the row it leaves on its account. The
legs of one transaction never share an account and an operation id.
-/

namespace Settlement

inductive Leg where
  | debit
  | credit
  | refund
  | deposit
  | withdraw
deriving DecidableEq, Repr

namespace Leg

def type : Leg → OperationType
  | debit | credit | refund => .transfer
  | deposit => .deposit
  | withdraw => .withdraw

def phase : Leg → Phase
  | refund => .compensation
  | debit | credit | deposit | withdraw => .forward

def direction : Leg → Direction
  | debit | withdraw => .debit
  | credit | refund | deposit => .credit

def account (leg : Leg) (new : NewTransaction) : Option AccountId :=
  match leg with
  | debit | refund | withdraw => new.source
  | credit | deposit => new.target

def amount (leg : Leg) (new : NewTransaction) : Decimal :=
  match leg with
  | credit => new.targetAmount
  | debit | refund | deposit | withdraw => new.amount

def before : Leg → List Leg
  | debit | deposit | withdraw => []
  | credit | refund => [.debit]

def row? (leg : Leg) (r : TransactionRecord) : Option AppliedRow :=
  (leg.account r.payload).map fun account =>
    ⟨⟨r.id, leg.phase⟩, account, leg.direction.delta (leg.amount r.payload)⟩

theorem row?_of_account {leg : Leg} {r : TransactionRecord} {account : AccountId}
    (h : leg.account r.payload = some account) :
    leg.row? r = some ⟨⟨r.id, leg.phase⟩, account, leg.direction.delta (leg.amount r.payload)⟩ := by
  rw [row?, h]
  rfl

theorem row?_operation {leg : Leg} {r : TransactionRecord} {row : AppliedRow}
    (h : leg.row? r = some row) : row.operation = ⟨r.id, leg.phase⟩ := by
  obtain ⟨a, _, rfl⟩ := Option.map_eq_some_iff.mp h
  rfl

theorem row?_transaction {leg : Leg} {r : TransactionRecord} {row : AppliedRow}
    (h : leg.row? r = some row) : row.operation.transaction = r.id := by
  rw [row?_operation h]

theorem row?_account {leg : Leg} {r : TransactionRecord} {row : AppliedRow}
    (h : leg.row? r = some row) : leg.account r.payload = some row.account := by
  obtain ⟨a, ha, rfl⟩ := Option.map_eq_some_iff.mp h
  exact ha

end Leg

/-- The legs that a step tells of. -/
def TransactionStep.legs : TransactionStep → List Leg
  | none => []
  | debitDone => [.debit]
  | creditDone => [.debit, .credit]

def OperationType.legs : OperationType → List Leg
  | transfer => [.debit, .credit]
  | deposit => [.deposit]
  | withdraw => [.withdraw]

structure TransactionRecord.Same (tx r : TransactionRecord) : Prop where
  id : tx.id = r.id
  payload : tx.payload = r.payload

namespace TransactionRecord.Same

variable {tx r : TransactionRecord}

theorem refl (r : TransactionRecord) : r.Same r := ⟨rfl, rfl⟩

theorem apply (h : tx.Same r) (w : Write) (now : Instant) : tx.Same (w.apply now r) :=
  ⟨by rw [h.id, Write.apply_id], by rw [h.payload, Write.apply_payload]⟩

theorem type_eq (h : tx.Same r) : tx.type = r.type := congrArg NewTransaction.type h.payload

theorem key_eq (h : tx.Same r) : tx.key = r.key := congrArg NewTransaction.key h.payload

theorem user_eq (h : tx.Same r) : tx.user = r.user := congrArg NewTransaction.user h.payload

end TransactionRecord.Same

theorem Leg.row?_same {tx r : TransactionRecord} (h : tx.Same r) (leg : Leg) :
    leg.row? tx = leg.row? r := by
  unfold row?
  rw [h.id, h.payload]

/-- The accounts that a transaction of each type names. -/
def NewTransaction.WellFormed (new : NewTransaction) : Prop :=
  match new.type, new.source, new.target with
  | .transfer, some source, some target => source ≠ target
  | .deposit, none, some _ => True
  | .withdraw, some _, none => True
  | _, _, _ => False

namespace NewTransaction

section

variable {new : NewTransaction}

theorem WellFormed.transfer (hw : new.WellFormed) (ht : new.type = .transfer) :
    ∃ a b, new.source = some a ∧ new.target = some b ∧ a ≠ b := by
  unfold WellFormed at hw
  rw [ht] at hw
  split at hw <;> simp_all

theorem WellFormed.deposit (hw : new.WellFormed) (ht : new.type = .deposit) :
    ∃ b, new.source = none ∧ new.target = some b := by
  unfold WellFormed at hw
  rw [ht] at hw
  split at hw <;> simp_all

theorem WellFormed.withdraw (hw : new.WellFormed) (ht : new.type = .withdraw) :
    ∃ a, new.source = some a ∧ new.target = none := by
  unfold WellFormed at hw
  rw [ht] at hw
  split at hw <;> simp_all

/-- A leg of the transaction's own type has an account. -/
theorem WellFormed.account (hw : new.WellFormed) {leg : Leg} (hl : leg.type = new.type) :
    ∃ a, leg.account new = some a := by
  cases leg with
  | debit | credit | refund =>
    obtain ⟨a, b, hs, ht, _⟩ := hw.transfer hl.symm
    exact ⟨_, by first | exact hs | exact ht⟩
  | deposit => exact (hw.deposit hl.symm).imp fun _ h => h.2
  | withdraw => exact (hw.withdraw hl.symm).imp fun _ h => h.1

/-- The source of a transfer is not its target, so the credit has a slot of its own. -/
theorem WellFormed.distinct (hw : new.WellFormed) {l k : Leg} (hl : l.type = new.type)
    (hk : k.type = new.type) (hp : l.phase = k.phase) (ha : l.account new = k.account new) :
    l = k := by
  have ht : new.type = .transfer → new.source ≠ new.target := by
    intro ht he
    obtain ⟨a, b, hs, hb, hn⟩ := hw.transfer ht
    exact hn (by simpa [hs, hb] using he)
  have hlk : l.type = k.type := hl.trans hk.symm
  rw [← hl] at ht
  clear hl hk
  cases l <;> cases k <;> simp_all [Leg.type, Leg.phase, Leg.account]

end

end NewTransaction

theorem Leg.exists_row? {leg : Leg} {r : TransactionRecord} (hw : r.payload.WellFormed)
    (hl : leg.type = r.type) : ∃ row, leg.row? r = some row := by
  obtain ⟨a, ha⟩ := hw.account hl
  exact ⟨_, by rw [row?, ha]; rfl⟩

theorem Leg.eq_of_slot {l k : Leg} {r : TransactionRecord} {x y : AppliedRow}
    (hw : r.payload.WellFormed) (hl : l.type = r.type) (hk : k.type = r.type)
    (hx : l.row? r = some x) (hy : k.row? r = some y) (he : x.slot = y.slot) : l = k := by
  have ho : x.operation = y.operation := congrArg Prod.fst he
  have ha : x.account = y.account := congrArg Prod.snd he
  rw [row?_operation hx, row?_operation hy] at ho
  refine hw.distinct hl hk (congrArg OperationId.phase ho) ?_
  rw [row?_account hx, row?_account hy, ha]

end Settlement
