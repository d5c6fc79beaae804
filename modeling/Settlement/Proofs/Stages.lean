import Settlement.Proofs.Legs
import Settlement.Service.Strategy

/-!
The stages a driver of records goes through, the calls it makes at each of them, and what it means for
a program to follow the stages whatever its surroundings answer.
-/

namespace Settlement

inductive Stage where
  /-- Works on no record. It may still load the one whose last attempt met a conflict. -/
  | idle (last : Option TransactionRecord)
  /-- Has started an attempt, and loads the record next. -/
  | taken (id : TransactionId)
  /-- Asks the ledger for a leg. -/
  | moving (leg : Leg) (tx : TransactionRecord)
  /-- The leg is done; its step is stored next. -/
  | recording (leg : Leg) (tx : TransactionRecord)
  /-- The terminal write is next. -/
  | settling (id : TransactionId) (status : TransactionStatus) (compensation : CompensationStatus)
  /-- Stopped or broken off. -/
  | ended

def Leg.step? : Leg → Option TransactionStep
  | debit => some .debitDone
  | credit => some .creditDone
  | refund | deposit | withdraw => none

theorem Leg.none_lt_step? {leg : Leg} {step : TransactionStep} (hl : leg.step? = some step) :
    TransactionStep.none < step := by
  cases leg with
  | debit | credit =>
    cases hl
    decide
  | refund | deposit | withdraw => cases hl

/-- An open record that no step was stored of yet takes every step. -/
theorem Leg.advance_allowed (leg : Leg) {step : TransactionStep} {r : TransactionRecord}
    (hl : leg.step? = some step) (ho : r.status.isTerminal = false) (hs : r.step = .none) :
    (Write.advance step).allows r = true := by
  simp [Write.allows, hs, ho, none_lt_step? hl]

def Finalization.Proper (fin : Finalization) : Prop := fin.status = .completed → fin.errorMessage = none

def Call.writes : Call → Bool
  | .ledger (.mutate ..) | .store (.insert _) | .store (.markProcessing _)
  | .store (.advanceStep ..) | .store (.finalize ..) => true
  | _ => false

namespace Stage

def about : Stage → Option TransactionId
  | idle none | ended => none
  | idle (some tx) | moving _ tx | recording _ tx => some tx.id
  | taken id | settling id _ _ => some id

def Idle (st : Stage) : Prop := ∃ last, st = idle last

def begins (tx : TransactionRecord) : Stage :=
  match tx.type, tx.step with
  | .transfer, .none => moving .debit tx
  | .transfer, .debitDone => moving .credit tx
  | .transfer, .creditDone => settling tx.id .completed .none
  | .deposit, _ => moving .deposit tx
  | .withdraw, _ => moving .withdraw tx

def resumes (tx : TransactionRecord) : Stage :=
  if tx.type = .transfer ∧ tx.step = .debitDone then moving .refund tx
  else settling tx.id .failed .none

def moved (leg : Leg) (tx : TransactionRecord) : Stage :=
  match leg with
  | .debit | .credit => recording leg tx
  | .refund => settling tx.id .failed .succeeded
  | .deposit | .withdraw => settling tx.id .completed .none

def refused (leg : Leg) (tx : TransactionRecord) : Stage :=
  match leg with
  | .credit => moving .refund tx
  | .refund => settling tx.id .failed .failed
  | .debit | .deposit | .withdraw => settling tx.id .failed .none

def recorded (leg : Leg) (tx : TransactionRecord) : Stage :=
  match leg with
  | .debit => moving .credit tx
  | _ => settling tx.id .completed .none

def failed (tx : TransactionRecord) (f : StrategyFailure) : Stage :=
  if f.isRetryable then idle (some tx) else settling tx.id .failed f.compensation

def Expects (st : Stage) : (call : Call) → call.Answer → Prop
  | .ledger (.getAccount id), .ok account => account.id = id
  | .store (.get id), .ok (some tx) =>
    tx.id = id ∧ tx.payload.WellFormed ∧
      ∀ last, st = idle (some last) → last.id = id → tx.payload = last.payload
  | _, _ => True

end Stage

inductive Turn : Stage → (call : Call) → call.Answer → Stage → Prop
  | look {call : Call} {a : call.Answer} (hc : call.writes = false) :
      Turn (.idle last) call a (.idle none)
  | insert {new : NewTransaction} (hw : new.WellFormed) :
      Turn (.idle last) (.store (.insert new)) a (.idle none)
  | take {id : TransactionId} :
      Turn (.idle last) (.store (.markProcessing id)) (.ok true) (.taken id)
  | pass {id : TransactionId} (ha : a ≠ .ok true) :
      Turn (.idle last) (.store (.markProcessing id)) a (.idle none)
  | load {id : TransactionId} {tx : TransactionRecord} :
      Turn (.taken id) (.store (.get id)) (.ok (some tx)) (.begins tx)
  | unread {id : TransactionId} (ha : ∀ tx, a ≠ .ok (some tx)) :
      Turn (.taken id) (.store (.get id)) a (.idle none)
  | reload {last tx : TransactionRecord} :
      Turn (.idle (some last)) (.store (.get last.id)) (.ok (some tx)) (.resumes tx)
  | moved {leg : Leg} {tx : TransactionRecord} {account : AccountId}
      (hl : leg.account tx.payload = some account) :
      Turn (.moving leg tx)
        (.ledger (.mutate leg.direction account (leg.amount tx.payload) ⟨tx.id, leg.phase⟩))
        (.ok outcome) (.moved leg tx)
  | contended {leg : Leg} {tx : TransactionRecord} {account : AccountId} {e : LedgerError}
      (hl : leg.account tx.payload = some account) (he : e.isRetryable = true) :
      Turn (.moving leg tx)
        (.ledger (.mutate leg.direction account (leg.amount tx.payload) ⟨tx.id, leg.phase⟩))
        (.error e) (.idle (some tx))
  | refused {leg : Leg} {tx : TransactionRecord} {account : AccountId} {e : LedgerError}
      (hl : leg.account tx.payload = some account) (he : e.isRetryable = false) :
      Turn (.moving leg tx)
        (.ledger (.mutate leg.direction account (leg.amount tx.payload) ⟨tx.id, leg.phase⟩))
        (.error e) (.refused leg tx)
  | recorded {leg : Leg} {tx : TransactionRecord} (hl : leg.step? = some step) :
      Turn (.recording leg tx) (.store (.advanceStep tx.id step)) (.ok done) (.recorded leg tx)
  | unrecorded {leg : Leg} {tx : TransactionRecord} {e : ServiceError}
      (hl : leg.step? = some step) :
      Turn (.recording leg tx) (.store (.advanceStep tx.id step)) (.error e)
        (.failed tx (.plain e))
  | close {id : TransactionId} {fin : Finalization} (proper : fin.Proper) :
      Turn (.settling id fin.status fin.compensation) (.store (.finalize id fin)) a (.idle none)

/-- Every call of the flow is one of its stage, whatever the answers, and it ends in a stage that
suits its value. It breaks off only where nothing is at stake. -/
def Flow.Follows (post : α → Stage → Prop) : Flow Call Call.Answer α → Stage → Prop
  | .done a, st => post a st
  | .panic _, st => st.Idle
  | .note _ rest, st => rest.Follows post st
  | .ask call next, st =>
    ∀ a, st.Expects call a → ∃ st', Turn st call a st' ∧ (next a).Follows post st'

namespace Flow

theorem follows_bind (x : Flow Call Call.Answer α) (f : α → Flow Call Call.Answer β)
    (post : β → Stage → Prop) (st : Stage) :
    (x >>= f).Follows post st ↔ x.Follows (fun a => (f a).Follows post) st := by
  induction x generalizing st with
  | done a => rfl
  | panic m => rfl
  | note e rest ih => exact ih st
  | ask q next ih => simp only [ask_bind, Follows, ih]

theorem Follows.mono {x : Flow Call Call.Answer α} {post post' : α → Stage → Prop} {st : Stage}
    (h : x.Follows post st) (hp : ∀ a st, post a st → post' a st) : x.Follows post' st := by
  induction x generalizing st with
  | done a => exact hp a st h
  | panic m => exact h
  | note e rest ih => exact ih h
  | ask q next ih =>
    intro a ha
    obtain ⟨st', ht, hf⟩ := h a ha
    exact ⟨st', ht, ih a hf⟩

end Flow

end Settlement
