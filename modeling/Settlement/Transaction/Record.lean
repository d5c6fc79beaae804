import Settlement.Error
import Settlement.Transaction.State

/-!
Transaction records, the writes on them, and pages of them.
-/

namespace Settlement

abbrev TransactionId := Int
abbrev CategoryId := Int

/-- What a store is given to insert. It adds the id, the times and the first state. -/
structure NewTransaction where
  user : UserId
  source : Option AccountId
  target : Option AccountId
  /-- Debited, in `currency`. -/
  amount : Decimal
  /-- Credited, in the currency of the target. -/
  targetAmount : Decimal
  rate : Decimal
  currency : Currency
  type : OperationType
  category : Option CategoryId
  key : String
deriving DecidableEq

structure TransactionRecord extends NewTransaction where
  id : TransactionId
  status : TransactionStatus
  step : TransactionStep
  compensation : CompensationStatus
  attempts : Int
  errorMessage : Option String
  createdAt : Instant
  updatedAt : Instant
deriving DecidableEq

/-- A record as callers see it: without its key and its attempts. -/
structure TransactionView where
  id : TransactionId
  user : UserId
  source : Option AccountId
  target : Option AccountId
  amount : Decimal
  targetAmount : Decimal
  rate : Decimal
  currency : Currency
  status : TransactionStatus
  step : TransactionStep
  compensation : CompensationStatus
  type : OperationType
  category : Option CategoryId
  errorMessage : Option String
  createdAt : Instant
  updatedAt : Instant
deriving DecidableEq

def TransactionRecord.view (r : TransactionRecord) : TransactionView :=
  { id := r.id, user := r.user, source := r.source, target := r.target, amount := r.amount,
    targetAmount := r.targetAmount, rate := r.rate, currency := r.currency, status := r.status,
    step := r.step, compensation := r.compensation, type := r.type, category := r.category,
    errorMessage := r.errorMessage, createdAt := r.createdAt, updatedAt := r.updatedAt }

/-- The view tells the fields of the record, each of them as it is stored. -/
structure TransactionView.Shows (v : TransactionView) (r : TransactionRecord) : Prop where
  id : v.id = r.id
  user : v.user = r.user
  source : v.source = r.source
  target : v.target = r.target
  amount : v.amount = r.amount
  targetAmount : v.targetAmount = r.targetAmount
  rate : v.rate = r.rate
  currency : v.currency = r.currency
  status : v.status = r.status
  step : v.step = r.step
  compensation : v.compensation = r.compensation
  type : v.type = r.type
  category : v.category = r.category
  errorMessage : v.errorMessage = r.errorMessage
  createdAt : v.createdAt = r.createdAt
  updatedAt : v.updatedAt = r.updatedAt

theorem TransactionRecord.view_shows (r : TransactionRecord) : r.view.Shows r := by
  constructor <;> rfl

/-- A record has one view. -/
theorem TransactionView.Shows.eq_view {v : TransactionView} {r : TransactionRecord} (h : v.Shows r) :
    v = r.view := by
  cases v
  obtain ⟨rfl, rfl, rfl, rfl, rfl, rfl, rfl, rfl, rfl, rfl, rfl, rfl, rfl, rfl, rfl, rfl⟩ := h
  rfl

theorem TransactionView.shows_iff {v : TransactionView} {r : TransactionRecord} :
    v.Shows r ↔ v = r.view :=
  ⟨Shows.eq_view, fun h => h ▸ r.view_shows⟩

structure Finalization where
  status : TransactionStatus
  compensation : CompensationStatus
  errorMessage : Option String
deriving DecidableEq

namespace Finalization

def completed : Finalization := ⟨.completed, .none, none⟩

def failed (message : String) (compensation : CompensationStatus) : Finalization :=
  ⟨.failed, compensation, some message⟩

end Finalization

inductive InsertOutcome where
  | inserted (record : TransactionRecord)
  /-- Another record has this key. -/
  | duplicateKey
deriving DecidableEq

structure PageRequest where
  page : Nat
  size : Nat
deriving DecidableEq, Repr

namespace PageRequest

def default : PageRequest := ⟨0, 20⟩

def clamped (r : PageRequest) (max : Nat) : PageRequest :=
  ⟨r.page, Nat.min (Nat.max r.size 1) (Nat.max max 1)⟩

def offset (r : PageRequest) : Nat := r.page * r.size

end PageRequest

structure Page (α : Type) where
  items : List α
  page : Nat
  size : Nat
  total : Nat

def Page.map (f : α → β) (p : Page α) : Page β :=
  ⟨p.items.map f, p.page, p.size, p.total⟩

end Settlement
