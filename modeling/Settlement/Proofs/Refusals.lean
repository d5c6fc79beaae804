import Settlement.Proofs.Ceiling
import Settlement.Proofs.Runs

/-!
Errors that a request answers before it has done anything: they come from its checks. One of them can
also come out of the ledger, when what is left of an amount in the target's currency is nothing.
-/

namespace Settlement

namespace ServiceError

def Early (e : ServiceError) : Prop :=
  e.kind = .validation ∨ (∃ text, e = .limitExceeded text) ∨
    ∃ text, e = .externalServiceUnavailable text

theorem early_not_retryable {e : ServiceError} (h : e.Early) : e.isRetryable = false := by
  rcases h with h | ⟨_, rfl⟩ | ⟨_, rfl⟩
  · rw [isRetryable, h]
    rfl
  · rfl
  · rfl

theorem not_early_internal (text : String) : ¬(internal text).Early := by simp [Early, kind]

theorem not_early_compensationFailed (text : String) : ¬(compensationFailed text).Early := by
  simp [Early, kind]

end ServiceError

/-- Of the errors of a ledger, only that of an amount looks like one of a check. -/
theorem LedgerError.toService_early {e : LedgerError} (h : e.toService.Early) : e = .invalidAmount := by
  cases e <;> simp [toService, ServiceError.Early, ServiceError.kind] at h ⊢

theorem LedgerError.early_not_retryable {e : LedgerError} (h : e.toService.Early) :
    e.isRetryable = false := by
  rw [← toService_isRetryable]
  exact ServiceError.early_not_retryable h

/-- The failure is one of the ledger's or the store's own: neither answers for a check. -/
def Failure.Own : Failure → Prop
  | .ledger e => e ≠ .invalidAmount
  | .store e => ¬e.Early

/-- Failures are own ones, and a rate that is known already is positive. -/
def Reply.Candid : Reply → Prop
  | .refused f | .lost _ f => f.Own
  | .elsewhere (.rates (.lookup ..)) a => ∀ rate, a = some rate → Decimal.zero < rate
  | .served _ | .elsewhere .. => True

structure Met.Idle (m : Met) : Prop where
  effect : m.effect = .nothing
  call : ∀ direction account amount operation,
    m.call ≠ .ledger (.mutate direction account amount operation)

/-- A transaction with a leg that no ledger moves. -/
def NewTransaction.Sour (new : NewTransaction) : Prop :=
  ∃ leg : Leg, leg.type = new.type ∧ leg.amount new ≤ Decimal.zero

/-- What is debited is positive, and what is credited is worth the same. -/
structure NewTransaction.Priced (new : NewTransaction) : Prop where
  positive : Decimal.zero < new.amount
  worth : new.type = .transfer → Money.convert new.amount new.rate = some new.targetAmount

def Stores.Told (σ : Stores) : (call : Call) → call.Answer → Prop
  | .ledger (.mutate _ _ amount _), a => a = .error .invalidAmount → amount ≤ Decimal.zero
  | .store (.insert new), a => ∀ r, a = .ok (.inserted r) → r.payload = new ∧ σ.Holds r
  | .store (.get id), a => ∀ r, a = .ok (some r) → r.id = id ∧ σ.Holds r
  | .store (.getByKey key), a => ∀ r, a = .ok (some r) → r.key = key ∧ σ.Holds r
  | .rates (.lookup ..), a => ∀ rate, a = some rate → Decimal.zero < rate
  | _, _ => True

def Call.Plainly : (call : Call) → call.Answer → Prop
  | .store call, a => ∀ e, a = call.failed e → ¬e.Early
  | _, _ => True

/-- The terms under which answers tell of the records that there are in the end. -/
def Terms.telling (σ : Stores) (may : Call → Prop) : Terms where
  may := may
  trust call a := σ.Told call a ∧ call.Plainly a

theorem Money.validate_positive {amount accepted : Decimal} (h : validate amount = .ok accepted) :
    Decimal.zero < accepted := by
  unfold validate at h
  split at h
  · contradiction
  next hpos =>
    split at h
    · contradiction
    · cases h
      exact Decimal.not_le.mp hpos

/-- A ledger refuses an amount only if there is nothing to it. -/
theorem Book.mutate_invalidAmount {b : Book} {direction : Direction} {id : AccountId}
    {amount : Decimal} {operation : OperationId}
    (h : (b.mutate direction id amount operation).1 = .value (.error .invalidAmount)) :
    amount ≤ Decimal.zero := by
  unfold mutate at h
  split at h
  next hp => exact hp
  next =>
  split at h
  next e he =>
    cases h
    unfold lock at he
    split at he
    · cases he
    · split at he <;> cases he
  next account _ =>
  split at h
  · cases h
  split at h
  next e he =>
    cases h
    unfold accept at he
    split at he
    · cases he
    · split at he <;> cases he
  next =>
  split at h <;> cases h

namespace Stores

section

variable {σ σ₁ σ₂ : Stores} {call : Call} {reply : Reply} {a : call.Answer} {eff : Effect}

theorem holds_of_row?_shifts {id : TransactionId} {r : TransactionRecord}
    (hr : σ₁.table.row? id = some r) (h : σ₁.Shifts σ) : r.id = id ∧ σ.Holds r := by
  obtain ⟨-, rfl⟩ := TransactionTable.mem_of_row? hr
  exact ⟨rfl, h.keeps r.id r hr⟩

/-- A store that carries a call out does not fail. -/
theorem carry_store {call : StoreCall} {now : Instant} {e : ServiceError}
    (h : σ₁.carry now (.store call) = some (.value (call.failed e), σ₂)) : False := by
  cases call with
  | sumSpending user since =>
    simp only [carry, TransactionTable.answer] at h
    split at h <;> cases h
  | insert | get | getByKey | markProcessing | advanceStep | finalize | findStuck | history => cases h

theorem failed_of_answer? {call : StoreCall} {f : Failure} {e : ServiceError} {b : call.Answer}
    (hf : f.answer? (.store call) = some b) (he : b = call.failed e) : f = .store e := by
  cases f with
  | ledger => cases hf
  | store e' =>
    cases hf
    cases call <;> cases he <;> rfl

theorem plainly_of_meet (hm : σ₁.meet call reply = some (.value a, eff, σ₂)) (hc : reply.Candid) :
    call.Plainly a := by
  cases call with
  | store call =>
    intro e he
    rcases meet_cases hm with ⟨-, -, b, hb, ⟨f, rfl, hf⟩ | hk⟩ |
      ⟨now, real, hr, -, ⟨rfl, rfl⟩ | ⟨f, b, rfl, hf, hb⟩⟩
    · cases hb
      cases failed_of_answer? hf he
      exact hc
    · cases hk
    · subst he
      exact (carry_store hr).elim
    · cases hb
      cases failed_of_answer? hf he
      exact hc
  | ledger | limits | categories | rates | now | pause => trivial

/-- A ledger that refuses an amount was asked for nothing. -/
theorem meet_invalidAmount {direction : Direction} {id : AccountId} {amount : Decimal}
    {operation : OperationId} {a : Except LedgerError MutationOutcome}
    (hm : σ₁.meet (.ledger (.mutate direction id amount operation)) reply =
      some (.value a, eff, σ₂)) (hc : reply.Candid) (ha : a = .error .invalidAmount) :
    amount ≤ Decimal.zero := by
  have hf : ∀ f : Failure, f.Own →
      f.answer? (.ledger (.mutate direction id amount operation)) ≠ some a := by
    intro f hf hb
    cases f with
    | ledger e =>
      cases hb
      exact hf (Except.error.inj ha)
    | store e => cases hb
  rcases meet_cases hm with ⟨-, -, b, hb, ⟨f, rfl, hfa⟩ | hk⟩ |
    ⟨now, real, hr, -, ⟨rfl, rfl⟩ | ⟨f, b, rfl, hfa, hb⟩⟩
  · cases hb
    exact (hf f hc hfa).elim
  · cases hk
  · subst ha
    exact Book.mutate_invalidAmount (congrArg Prod.fst (Option.some.inj hr))
  · cases hb
    exact (hf f hc hfa).elim

theorem meet_insert_told {new : NewTransaction} {a : Except ServiceError InsertOutcome}
    (hs : σ₁.table.Sound) (hm : σ₁.meet (.store (.insert new)) reply = some (.value a, eff, σ₂)) :
    (∀ r, a = .ok (.inserted r) → r.payload = new ∧ σ₂.table.row? r.id = some r) ∧
      (a = .ok .duplicateKey → eff = .nothing) := by
  rcases meet_store hm with ⟨rfl, -, ⟨e, rfl⟩, -⟩ | ⟨now, real, hr, -, rfl, ha⟩
  · exact ⟨by simp [StoreCall.failed], fun _ => rfl⟩
  rcases ha with rfl | ⟨⟨e, rfl⟩, -⟩
  · have hi := hs.inserted new now
    rcases hu : σ₁.table.insert new now with ⟨outcome, table⟩
    rw [hu] at hi
    obtain ⟨rfl, rfl⟩ : .ok outcome = a ∧ table = σ₂.table := by
      simpa [TransactionTable.answer, hu] using hr
    refine ⟨?_, ?_⟩
    · rintro r ⟨⟩
      cases hi with
      | inserted now' row free rows sound =>
        refine ⟨by rw [row]; rfl, sound.row?_of_mem ?_⟩
        rw [rows]
        exact List.mem_append_right _ (List.mem_singleton_self r)
    · rintro ⟨⟩
      rfl
  · exact ⟨by simp [StoreCall.failed], by simp [StoreCall.failed]⟩

theorem meet_getByKey_told {key : String} {r : TransactionRecord}
    (hs : σ₁.table.Sound)
    (hm : σ₁.meet (.store (.getByKey key)) reply = some (.value (.ok (some r)), eff, σ₂)) :
    r ∈ σ₁.table.rows ∧ r.key = key := by
  rcases meet_store hm with ⟨-, -, ⟨e, he⟩, -⟩ | ⟨now, real, hr, -, -, ha | ⟨⟨e, he⟩, -⟩⟩
  · cases he
  · have hv := congrArg Prod.fst hr
    rw [ha] at hv
    exact (hs.found key r).mp (Except.ok.inj (Flow.Outcome.value.inj hv))
  · cases he

theorem told_of_meet (hs : σ₁.table.Sound) (hm : σ₁.meet call reply = some (.value a, eff, σ₂))
    (h : σ₁.Shifts σ₂) (hlater : σ₂.Shifts σ) (hc : reply.Candid) : σ.Told call a := by
  have hboth : σ₁.Shifts σ := ⟨h.keeps.trans hlater.keeps, hlater.sound⟩
  unfold Told
  split
  next => exact meet_invalidAmount hm hc
  next new =>
    intro r hr
    obtain ⟨hp, hrow⟩ := (meet_insert_told hs hm).1 r hr
    exact ⟨hp, (holds_of_row?_shifts hrow hlater).2⟩
  next id =>
    intro r hr
    exact holds_of_row?_shifts (meet_get hm _ hr) hboth
  next key =>
    intro r hr
    subst hr
    obtain ⟨hmem, hkey⟩ := meet_getByKey_told hs hm
    exact ⟨hkey, (holds_of_row?_shifts (hs.row?_of_mem hmem) hboth).2⟩
  next source target =>
    cases meet_elsewhere rfl hm
    exact hc
  next => trivial

end
end Stores

/-- The program keeps to the terms, and both what it returns and what it fails with are as they should
be. -/
def Yields (t : Terms) (p : Program ε α) (value : α → Prop) (error : ε → Prop) : Prop :=
  Flow.Under t (fun r => (∀ a, r = .ok a → value a) ∧ ∀ e, r = .error e → error e) p.run

namespace Yields

section

variable {t : Terms} {value : α → Prop} {error : ε → Prop}

theorem bind {given : β → Prop} {p : Program ε β} {f : β → Program ε α} (hp : Yields t p given error)
    (hf : ∀ b, given b → Yields t (f b) value error) : Yields t (p >>= f) value error := by
  show Flow.Under t _ (p.run >>= ExceptT.bindCont f)
  rw [Flow.under_bind]
  refine Flow.Under.mono hp fun r hr => ?_
  cases r with
  | ok b => exact hf b (hr.1 b rfl)
  | error e => exact ⟨by simp, fun e' he => hr.2 e' (by cases he; rfl)⟩

theorem mono {value' : α → Prop} {error' : ε → Prop} {p : Program ε α} (h : Yields t p value error)
    (hv : ∀ a, value a → value' a) (he : ∀ e, error e → error' e) : Yields t p value' error' :=
  Flow.Under.mono h fun _ hr => ⟨fun a ha => hv a (hr.1 a ha), fun e h => he e (hr.2 e h)⟩

/-- A step whose value does not matter. -/
theorem andThen {p : Program ε β} {f : β → Program ε α} (hp : Yields t p (fun _ => True) error)
    (hf : ∀ b, Yields t (f b) value error) : Yields t (p >>= f) value error :=
  bind hp fun b _ => hf b

theorem of_pure {a : α} (h : value a) : Yields t (pure a : Program ε α) value error :=
  ⟨fun _ ha => by cases ha; exact h, by simp⟩

theorem of_throw {e : ε} (h : error e) : Yields t (throw e : Program ε α) value error :=
  ⟨by simp, fun _ he => by cases he; exact h⟩

theorem of_throw_bind {e : ε} {f : β → Program ε α} (h : error e) :
    Yields t (throw e >>= f) value error :=
  ⟨by simp, fun _ he => by cases he; exact h⟩

theorem of_known {r : Except ε α} (hv : ∀ a, r = .ok a → value a) (he : ∀ e, r = .error e → error e) :
    Yields t (Fallible.known r : Program ε α) value error := ⟨hv, he⟩

theorem of_log {level : Log.Level} {target message : String}
    {fields : List (String × Log.FieldValue)} :
    Yields t (Fallible.log level target message fields : Program ε Unit) (fun _ => True) error :=
  ⟨fun _ _ => trivial, by simp⟩

theorem of_mapError {p : Program δ α} {f : δ → ε} {given : δ → Prop} (hp : Yields t p value given)
    (hf : ∀ d, given d → error (f d)) : Yields t (Fallible.mapError f p) value error := by
  show Flow.Under t _ (p.run >>= fun r => .done (r.mapError f))
  rw [Flow.under_bind]
  refine Flow.Under.mono hp fun r hr => ?_
  cases r with
  | ok b => exact ⟨fun a ha => hr.1 a (by cases ha; rfl), by simp [Except.mapError]⟩
  | error d => exact ⟨by simp [Except.mapError], fun e he => by cases he; exact hf d (hr.2 d rfl)⟩

theorem of_attempt {p : Program δ α} {given : δ → Prop} (hp : Yields t p value given) :
    Yields t (Fallible.attempt p : Program ε (Except δ α))
      (fun r => (∀ a, r = .ok a → value a) ∧ ∀ d, r = .error d → given d) error := by
  show Flow.Under t _ (p.run >>= fun r => Flow.done (Except.ok r))
  rw [Flow.under_bind]
  exact Flow.Under.mono hp fun r hr => ⟨fun _ ha => by cases ha; exact hr, by simp⟩

/-- A program that may fail in any way. -/
theorem attempt_of_heeds {p : Program δ α} (hp : Heeds t p fun _ => True) :
    Yields t (Fallible.attempt p : Program ε (Except δ α)) (fun _ => True) error := by
  show Flow.Under t _ (p.run >>= fun r => Flow.done (Except.ok r))
  rw [Flow.under_bind]
  exact Flow.Under.mono hp fun r _ => ⟨fun _ _ => trivial, by simp⟩

end
end Yields

def TransactionRecord.Fails (tx : TransactionRecord) (f : StrategyFailure) : Prop :=
  f.error.Early → f.error = LedgerError.invalidAmount.toService ∧ tx.payload.Sour

def Stores.Fails (σ : Stores) (id : TransactionId) (e : ServiceError) : Prop :=
  e.Early → e = LedgerError.invalidAmount.toService ∧
    ∃ r, σ.table.row? id = some r ∧ r.payload.Sour

namespace Service

open Program Yields

section

variable {σ : Stores} {may : Call → Prop} (ht : (Terms.telling σ may).Open) {s : Service}
  {tx : TransactionRecord} {id : TransactionId} {source target account : AccountId}

theorem fails_plain {e : ServiceError} (he : ¬e.Early) : tx.Fails (.plain e) := fun h => absurd h he

theorem fails_ofLedger {e : LedgerError} (he : e = .invalidAmount → tx.payload.Sour) :
    tx.Fails (.ofLedger e) := fun h => by
  obtain rfl := LedgerError.toService_early h
  exact ⟨rfl, he rfl⟩

theorem sourceOf_yields :
    Yields (.telling σ may) (Fallible.known ((sourceOf tx).mapError .plain)) (fun _ => True) tx.Fails := by
  refine of_known (fun _ _ => trivial) fun f hf => ?_
  unfold sourceOf at hf
  split at hf <;> cases hf
  exact fails_plain (ServiceError.not_early_internal _)

theorem targetOf_yields :
    Yields (.telling σ may) (Fallible.known ((targetOf tx).mapError .plain)) (fun _ => True) tx.Fails := by
  refine of_known (fun _ _ => trivial) fun f hf => ?_
  unfold targetOf at hf
  split at hf <;> cases hf
  exact fails_plain (ServiceError.not_early_internal _)

include ht

theorem mutate_yields {direction : Direction} {amount : Decimal} {operation : OperationId} :
    Yields (.telling σ may) (mutate direction account amount operation) (fun _ => True)
      fun e => e = .invalidAmount → amount ≤ Decimal.zero :=
  ⟨ht.plain _ rfl, fun _ ha => ⟨fun _ _ => trivial, fun _ he hi => ha.1 (he.trans (congrArg _ hi))⟩⟩

theorem advanceStep_yields {step : TransactionStep} :
    Yields (.telling σ may) (Fallible.mapError StrategyFailure.plain (advanceStep id step))
      (fun _ => True) tx.Fails := by
  have hs : Yields (.telling σ may) (advanceStep id step) (fun _ => True) fun e => ¬e.Early :=
    ⟨ht.plain _ rfl, fun _ ha => ⟨fun _ _ => trivial, fun e he => ha.2 e he⟩⟩
  exact of_mapError hs fun _ he => fails_plain he

/-- A leg of the transaction that is asked for alone. -/
theorem leg_yields (leg : Leg) (hl : leg.type = tx.type) {operation : OperationId} :
    Yields (.telling σ may) (Fallible.mapError StrategyFailure.ofLedger
      (mutate leg.direction account (leg.amount tx.payload) operation)) (fun _ => True) tx.Fails :=
  of_mapError (mutate_yields ht) fun _ he => fails_ofLedger fun hi => ⟨leg, hl, he hi⟩

theorem refundAfter_yields {e : LedgerError} (he : e = .invalidAmount → tx.payload.Sour) :
    Yields (.telling σ may) (refundAfter tx source target e) (fun _ => True) tx.Fails := by
  unfold refundAfter
  refine andThen (attempt_of_heeds (refund_heeds ht)) fun result => ?_
  split
  · exact of_throw (fails_ofLedger he)
  next r =>
    split
    next hr =>
      refine of_throw fun h => absurd hr ?_
      rw [LedgerError.early_not_retryable h]
      exact Bool.false_ne_true
    · exact of_throw (fails_plain (ServiceError.not_early_compensationFailed _))

theorem creditTarget_yields (hty : tx.type = .transfer) :
    Yields (.telling σ may) (creditTarget s tx source target) (fun _ => True) tx.Fails := by
  unfold creditTarget
  refine bind (of_attempt (mutate_yields ht)) fun result hr => ?_
  split
  · exact andThen (advanceStep_yields ht) fun _ => of_log
  next e =>
    have he : e = .invalidAmount → tx.payload.Sour := fun hi => ⟨.credit, hty.symm, hr.2 e rfl hi⟩
    split
    · exact of_throw_bind (fails_ofLedger he)
    · exact andThen of_log fun _ => refundAfter_yields ht he

theorem debitSource_yields (hty : tx.type = .transfer) :
    Yields (.telling σ may) (debitSource s tx source) (fun _ => True) tx.Fails := by
  unfold debitSource
  exact andThen (leg_yields ht .debit hty.symm) fun _ =>
    andThen (advanceStep_yields ht) fun _ => of_log

theorem execute_yields : Yields (.telling σ may) (execute s tx.type tx) (fun _ => True) tx.Fails := by
  unfold execute
  split
  next hty =>
    unfold executeTransfer
    refine andThen sourceOf_yields fun source => andThen targetOf_yields fun target => ?_
    split
    · exact andThen (debitSource_yields ht hty) fun _ => creditTarget_yields ht hty
    · exact creditTarget_yields ht hty
    · exact of_pure trivial
  next hty =>
    unfold executeDeposit
    exact andThen targetOf_yields fun target =>
      andThen (leg_yields ht .deposit hty.symm) fun _ => of_log
  next hty =>
    unfold executeWithdraw
    exact andThen sourceOf_yields fun source =>
      andThen (leg_yields ht .withdraw hty.symm) fun _ => of_log

theorem compensate_yields {type : OperationType} :
    Yields (.telling σ may) (compensate type tx) (fun _ => True) fun e => ¬e.Early := by
  unfold compensate
  split
  · exact of_pure trivial
  have hk : Yields (.telling σ may) (Fallible.known (sourceOf tx)) (fun _ => True)
      fun e => ¬e.Early := by
    refine of_known (fun _ _ => trivial) fun e he => ?_
    unfold sourceOf at he
    split at he <;> cases he
    exact ServiceError.not_early_internal _
  refine andThen hk fun source => ?_
  refine andThen (attempt_of_heeds (refund_heeds ht)) fun result => ?_
  split
  · exact of_pure trivial
  · split
    next hr =>
      refine of_throw fun h => absurd hr ?_
      rw [LedgerError.early_not_retryable h]
      exact Bool.false_ne_true
    · exact of_pure trivial

theorem load_yields :
    Yields (.telling σ may) (load id) (fun tx => tx.id = id ∧ σ.Holds tx) fun e => ¬e.Early := by
  unfold load
  have hg : Yields (.telling σ may) (get id)
      (fun found => ∀ tx, found = some tx → tx.id = id ∧ σ.Holds tx) fun e => ¬e.Early :=
    ⟨ht.plain _ rfl, fun _ ha => ⟨fun found hf tx htx => ha.1 tx (by rw [hf, htx]),
      fun e he => ha.2 e he⟩⟩
  refine bind hg fun found hf => ?_
  split
  next tx => exact of_pure (hf tx rfl)
  · exact of_throw (ServiceError.not_early_internal _)

theorem viewOf_yields :
    Yields (.telling σ may) (viewOf id) (fun _ => True) fun e => ¬e.Early := by
  unfold viewOf
  rw [map_eq_pure_bind]
  exact bind (load_yields ht) fun _ _ => of_pure trivial

theorem close_yields {fin : Finalization} :
    Yields (.telling σ may) (close id fin) (fun _ => True) fun e => ¬e.Early := by
  unfold close
  have hf : Yields (.telling σ may) (finalize id fin) (fun _ => True) fun e => ¬e.Early :=
    ⟨ht.plain _ rfl, fun _ ha => ⟨fun _ _ => trivial, fun e he => ha.2 e he⟩⟩
  refine andThen hf fun done => ?_
  split
  · exact of_log
  · exact of_pure trivial

theorem fail_yields {failure : StrategyFailure} :
    Yields (.telling σ may) (fail id failure) (fun e => e = failure.error) fun e => ¬e.Early := by
  unfold fail
  refine andThen (close_yields ht) fun _ => ?_
  split
  · exact andThen of_log fun _ => of_pure rfl
  · exact andThen of_log fun _ => of_pure rfl

theorem failExhausted_yields {type : OperationType} {conflict : ServiceError} (hc : ¬conflict.Early) :
    Yields (.telling σ may) (failExhausted s type id conflict) (fun e => ¬e.Early)
      fun e => ¬e.Early := by
  unfold failExhausted
  refine bind (load_yields ht) fun tx _ => ?_
  refine bind (of_attempt (compensate_yields ht)) fun result hr => ?_
  split
  next compensation =>
    refine andThen (close_yields ht) fun _ => andThen of_log fun _ => of_pure ?_
    cases compensation with
    | failed => exact ServiceError.not_early_compensationFailed _
    | notNeeded | refunded => exact hc
  next e =>
    split
    · exact andThen of_log fun _ => of_pure hc
    · exact of_throw (hr.2 e rfl)

theorem attemptOnce_yields {number : Nat}
    {again : Option (Unit → Program ServiceError TransactionView)}
    (hn : ∀ next, again = some next →
      Yields (.telling σ may) (next ()) (fun _ => True) (σ.Fails id)) :
    Yields (.telling σ may) (attemptOnce s id number again) (fun _ => True) (σ.Fails id) := by
  have hlate : ∀ e, ¬e.Early → σ.Fails id e := fun e he h => absurd h he
  have hview : Yields (.telling σ may) (viewOf id) (fun _ => True) (σ.Fails id) :=
    mono (viewOf_yields ht) (fun _ h => h) hlate
  have hmark : Yields (.telling σ may) (markProcessing id) (fun _ => True) (σ.Fails id) :=
    ⟨ht.plain _ rfl, fun _ ha => ⟨fun _ _ => trivial, fun e he => hlate e (ha.2 e he)⟩⟩
  have hclose : ∀ fin, Yields (.telling σ may) (close id fin) (fun _ => True) (σ.Fails id) :=
    fun fin => mono (close_yields ht) (fun _ h => h) hlate
  unfold attemptOnce
  refine andThen hmark fun taken => ?_
  split
  · exact andThen of_log fun _ => hview
  refine bind (mono (load_yields ht) (fun _ h => h) hlate) fun tx htx => andThen of_log fun _ => ?_
  refine bind (of_attempt (execute_yields ht)) fun result hr => ?_
  split
  · exact andThen (hclose _) fun _ => andThen of_log fun _ => hview
  next failure =>
    have hfail := hr.2 failure rfl
    split
    next hretry =>
      split
      next next =>
        refine andThen of_log fun _ => andThen ?_ fun _ => hn next rfl
        exact ⟨ht.plain _ rfl, fun _ _ => ⟨fun _ _ => trivial, by simp⟩⟩
      · have hc : ¬failure.error.Early := fun h => by
          rw [StrategyFailure.isRetryable, ServiceError.early_not_retryable h] at hretry
          cases hretry
        exact bind (mono (failExhausted_yields ht hc) (fun _ h => h) hlate) fun e he =>
          of_throw (hlate e he)
    · refine bind (mono (fail_yields ht) (fun _ h => h) hlate) ?_
      rintro _ rfl
      refine of_throw fun h => ?_
      obtain ⟨he, hs⟩ := hfail h
      obtain ⟨rfl, r, hrow, hsame⟩ := htx
      exact ⟨he, r, hrow, hsame.payload ▸ hs⟩

theorem drive_yields : Yields (.telling σ may) (drive s id) (fun _ => True) (σ.Fails id) := by
  have hfrom : ∀ left number,
      Yields (.telling σ may) (driveFrom s id left number) (fun _ => True) (σ.Fails id) := by
    intro left
    induction left with
    | zero => exact fun number => attemptOnce_yields ht (by simp)
    | succ left ih =>
      refine fun number => attemptOnce_yields ht fun next hn => ?_
      cases hn
      exact ih (number + 1)
  exact hfrom _ 1

end

section

variable {t : Terms} (ht : t.Queries) {s : Service} {user : UserId} {key : String}
include ht

theorem newTransfer_priced {request : TransferRequest} :
    Heeds t (newTransfer s request user key) NewTransaction.Priced := by
  unfold newTransfer
  refine Heeds.bind validAmount_heeds fun amount hv => ?_
  split
  · exact Heeds.of_throw_bind
  refine Heeds.bind (ownedAccount_heeds ht) fun source _ => ?_
  refine Heeds.bind (existingAccount_heeds ht) fun target _ => ?_
  refine Heeds.andThen requireActive_heeds fun _ => Heeds.andThen requireActive_heeds fun _ => ?_
  refine Heeds.bind (Heeds.of_mapError (getRate_heeds ht)) fun rate _ => ?_
  refine Heeds.bind converted_heeds fun targetAmount hc => ?_
  refine Heeds.andThen (resolveCategory_heeds ht) fun category => ?_
  exact Heeds.bind (checkLimit_heeds ht) fun _ _ =>
    Heeds.of_pure ⟨Money.validate_positive hv, fun _ => hc⟩

theorem newDeposit_priced {request : DepositRequest} :
    Heeds t (newDeposit request user key) NewTransaction.Priced := by
  unfold newDeposit
  refine Heeds.bind validAmount_heeds fun amount hv => ?_
  refine Heeds.bind (ownedAccount_heeds ht) fun target _ => ?_
  refine Heeds.andThen requireActive_heeds fun _ => Heeds.andThen (resolveCategory_heeds ht) fun _ => ?_
  exact Heeds.of_pure ⟨Money.validate_positive hv, by simp⟩

theorem newWithdraw_priced {request : WithdrawRequest} :
    Heeds t (newWithdraw s request user key) NewTransaction.Priced := by
  unfold newWithdraw
  refine Heeds.bind validAmount_heeds fun amount hv => ?_
  refine Heeds.bind (ownedAccount_heeds ht) fun source _ => ?_
  refine Heeds.andThen requireActive_heeds fun _ => ?_
  refine Heeds.andThen (resolveCategory_heeds ht) fun category => ?_
  exact Heeds.bind (checkLimit_heeds ht) fun _ _ =>
    Heeds.of_pure ⟨Money.validate_positive hv, by simp⟩

end
end Service

/-- Two facts about one program. -/
theorem Heeds.and {t : Terms} {p : Program ε α} {value value' : α → Prop} (h : Heeds t p value)
    (h' : Heeds t p value') : Heeds t p fun a => value a ∧ value' a := by
  unfold Heeds at *
  generalize p.run = x at h h' ⊢
  induction x with
  | done r => exact fun a ha => ⟨h a ha, h' a ha⟩
  | panic => trivial
  | note e rest ih => exact ih h h'
  | ask call next ih => exact ⟨h.1, fun a ha => ih a (h.2 a ha) (h'.2 a ha)⟩

theorem Decimal.isZero_of_le {d : Decimal} (h : d ≤ zero) (h' : zero ≤ d) : d.isZero = true := by
  have hc : d.coefficient = 0 := by
    have hz : d.coefficient * tenTo 0 ≤ 0 := by simpa [zero] using le_def.mp h
    rw [zero_le_iff] at h'
    rw [tenTo_zero] at hz
    omega
  simp [isZero, hc]

namespace Request

def check (s : Service) (user : UserId) (key : String) : Request → Program ServiceError NewTransaction
  | transfer request => Service.newTransfer s request user key
  | deposit request => Service.newDeposit request user key
  | withdraw request => Service.newWithdraw s request user key

theorem program_eq (request : Request) (s : Service) (user : UserId) (key : String) :
    request.program s user key = s.submit user key (request.check s user key) := by
  cases request <;> rfl

theorem check_heeds (request : Request) {t : Terms} (ht : t.Queries) {s : Service} {user : UserId}
    {key : String} : Heeds t (request.check s user key) fun new =>
      new.key = key ∧ new.user = user ∧ t.Checks new ∧ new.Priced := by
  cases request with
  | transfer =>
    exact ((Service.newTransfer_heeds ht).and (Service.newTransfer_priced ht)).mono
      fun _ h => ⟨h.1.1, h.1.2.1, h.1.2.2, h.2⟩
  | deposit =>
    exact ((Service.newDeposit_heeds ht).and (Service.newDeposit_priced ht)).mono
      fun _ h => ⟨h.1.1, h.1.2.1, h.1.2.2, h.2⟩
  | withdraw =>
    exact ((Service.newWithdraw_heeds ht).and (Service.newWithdraw_priced ht)).mono
      fun _ h => ⟨h.1.1, h.1.2.1, h.1.2.2, h.2⟩

end Request

/-- A transaction that was priced is sour only where a positive amount is worth nothing. -/
theorem NewTransaction.Priced.sour {new : NewTransaction} (hp : new.Priced) (hs : new.Sour) :
    new.type = .transfer ∧ new.targetAmount ≤ Decimal.zero := by
  obtain ⟨leg, hl, ha⟩ := hs
  cases leg with
  | credit => exact ⟨hl.symm, ha⟩
  | debit | refund | deposit | withdraw => exact absurd hp.positive (Decimal.not_lt.mpr ha)

theorem Terms.telling_queries (σ : Stores) :
    (telling σ fun call => call.writes = false).Queries := ⟨fun _ _ hw => hw, fun _ _ _ _ => rfl⟩

theorem Terms.telling_open (σ : Stores) : (telling σ fun call => call.insertion = none).Open :=
  ⟨storeless_open.plain, storeless_open.keep⟩

section

variable {σ σ₁ σ' : Stores} {mets : List Met}

theorem Call.insertion_of_reads {call : Call} (h : call.writes = false) : call.insertion = none := by
  cases hi : call.insertion with
  | none => rfl
  | some i =>
    unfold insertion at hi
    split at hi
    · cases h
    · cases hi

/-- What the calls of a run heard tells of the records that there are in the end. -/
theorem Flow.Runs.told {x : Flow Call Call.Answer α} {outcome : Flow.Outcome α}
    (h : x.Runs σ mets outcome σ') (hc : ∀ m ∈ mets, m.reply.Candid) (may : Call → Prop) :
    ∀ m ∈ mets, ∀ a, m.outcome = .value a → (Terms.telling σ' may).trust m.call a := by
  intro m hm a ha
  obtain ⟨σ₁, σ₂, hs, hmet, hshift, hlater⟩ := h.met m hm
  rw [ha] at hmet
  exact ⟨Stores.told_of_meet hs hmet hshift hlater (hc m hm), Stores.plainly_of_meet hmet (hc m hm)⟩

/-- A call that writes nothing is idle. -/
theorem Flow.Runs.idle {x : Flow Call Call.Answer α} {outcome : Flow.Outcome α}
    (h : x.Runs σ mets outcome σ') (hr : ∀ m ∈ mets, m.call.writes = false) : ∀ m ∈ mets, m.Idle := by
  intro m hm
  obtain ⟨σ₁, σ₂, -, hmet, -, -⟩ := h.met m hm
  refine ⟨(Stores.meet_reads (hr m hm) hmet).1, fun direction account amount operation he => ?_⟩
  have hw := hr m hm
  rw [he] at hw
  cases hw

/-- A record is inserted by an insertion. -/
theorem Flow.Runs.insertion {x : Flow Call Call.Answer α} {outcome : Flow.Outcome α}
    (h : x.Runs σ mets outcome σ') {m : Met} (hm : m ∈ mets) {r : TransactionRecord}
    (he : m.effect = .inserted r) : ∃ new, m.call = .store (.insert new) := by
  obtain ⟨σ₁, σ₂, -, hmet, -, -⟩ := h.met m hm
  rw [he] at hmet
  cases ho : m.outcome with
  | value a =>
    rw [ho] at hmet
    obtain ⟨new, hcall, -⟩ := Stores.meet_inserted hmet
    exact ⟨new, hcall⟩
  | panic message =>
    rw [ho] at hmet
    cases (Stores.meet_panic hmet).1

/-- A program that only reads has made idle calls only. -/
theorem Heeds.idle {p : Program ε α} {value : α → Prop} {outcome : Flow.Outcome (Except ε α)}
    (hp : Heeds (.telling σ' fun call => call.writes = false) p value)
    (h : p.run.Runs σ mets outcome σ₁)
    (ht : ∀ m ∈ mets, ∀ a, m.outcome = .value a →
      (Terms.telling σ' fun call => call.writes = false).trust m.call a) : ∀ m ∈ mets, m.Idle :=
  h.idle (Flow.Under.runs hp h ht).1

variable {s : Service} {user : UserId} {e : ServiceError}

/-- A key that has a record: the request did nothing, or an amount of the record is worth nothing. -/
theorem Service.replay_refused {existing : TransactionRecord}
    (h : (replay s existing user).run.Runs σ mets (.value (.error e)) σ')
    (hc : ∀ m ∈ mets, m.reply.Candid) (he : e.Early) (hx : σ'.Holds existing) :
    (∀ m ∈ mets, m.Idle) ∨ (∀ m ∈ mets, m.call.insertion = none) ∧
      e = LedgerError.invalidAmount.toService ∧
      ∃ r ∈ σ'.table.rows, existing.Same r ∧ r.user = user ∧ r.payload.Sour := by
  by_cases hu : existing.user = user
  · have hdrive : Yields (.telling σ' fun call => call.insertion = none) (replay s existing user)
        (fun _ => True) (σ'.Fails existing.id) := by
      unfold replay
      dsimp only
      rw [if_neg (not_not_intro hu)]
      refine Yields.andThen Yields.of_log fun _ => ?_
      split
      · exact drive_yields (Terms.telling_open σ')
      · exact Yields.of_pure trivial
    obtain ⟨hmay, hpost⟩ := Flow.Under.runs hdrive h (h.told hc _)
    obtain ⟨heq, r, hrow, hsour⟩ := (hpost _ rfl).2 e rfl he
    obtain ⟨r', hrow', hsame⟩ := hx
    cases hrow.symm.trans hrow'
    exact .inr ⟨hmay, heq, r, (TransactionTable.mem_of_row? hrow).1, hsame,
      hsame.user_eq.symm.trans hu, hsour⟩
  · left
    have hreads : Heeds (.telling σ' fun call => call.writes = false) (replay s existing user)
        fun _ => True := by
      unfold replay
      dsimp only
      rw [if_pos hu]
      exact Heeds.of_throw_bind
    exact hreads.idle h (h.told hc _)

/-- An insertion tells of a record with what it was given, and fails like no check. -/
theorem Service.insert_yields {new : NewTransaction} :
    Yields (.telling σ' fun _ => True) (Program.insert new)
      (fun outcome => ∀ r, outcome = .inserted r → r.payload = new ∧ σ'.Holds r)
      fun e => ¬e.Early :=
  ⟨trivial, fun _ ha => ⟨fun outcome ho r hr => ha.1 r (by rw [ho, hr]), fun e he => ha.2 e he⟩⟩

/-- A taken key leaves the table as it is. -/
theorem Service.duplicate_idle {new : NewTransaction}
    (h : (Program.insert new).run.Runs σ mets (.value (.ok .duplicateKey)) σ') :
    ∀ m ∈ mets, m.Idle := by
  change Flow.Runs (.ask (.store (.insert new)) .done) _ _ _ _ at h
  cases h with
  | ask others met later =>
    cases later
    intro m hm
    cases List.mem_singleton.mp hm
    exact ⟨(Stores.meet_insert_told others.sound met).2 rfl, by simp⟩

/-- A new record: the request did nothing, or an amount of the record is worth nothing. -/
theorem Service.createAndDrive_refused {new : NewTransaction}
    (h : (createAndDrive s new).run.Runs σ mets (.value (.error e)) σ')
    (hc : ∀ m ∈ mets, m.reply.Candid) (he : e.Early) :
    (∀ m ∈ mets, m.Idle) ∨ e = LedgerError.invalidAmount.toService ∧
      ∃ r ∈ σ'.table.rows, r.payload = new ∧ new.Sour := by
  have htold := h.told hc
  unfold createAndDrive at h
  rcases Program.runs_bind h with h | ⟨outcome, σ₂, before, after, rfl, hb, ha⟩
  · exact absurd he (((Flow.Under.runs insert_yields h (htold _)).2 _ rfl).2 e rfl)
  have hheard := ((Flow.Under.runs insert_yields hb fun m hm =>
    htold _ m (List.mem_append_left _ hm)).2 _ rfl).1 outcome rfl
  have htold₂ := fun may m hm => htold may m (List.mem_append_right before hm)
  cases outcome with
  | inserted tx =>
    obtain ⟨rfl, r, hrow, hsame⟩ := hheard tx rfl
    right
    have hdrive : Yields (.telling σ' fun call => call.insertion = none) (do
        Fallible.log .info Log.Target.service "Transaction created"
          [("tx_id", .int tx.id), ("operation", .shown tx.type.name),
            ("amount", .shown tx.amount.text), ("status", .shown tx.status.name)]
        drive s tx.id) (fun _ => True) (σ'.Fails tx.id) :=
      Yields.andThen Yields.of_log fun _ => drive_yields (Terms.telling_open σ')
    obtain ⟨heq, r', hrow', hsour⟩ := ((Flow.Under.runs hdrive ha (htold₂ _)).2 _ rfl).2 e rfl he
    cases hrow.symm.trans hrow'
    exact ⟨heq, r, (TransactionTable.mem_of_row? hrow).1, hsame.payload.symm, hsame.payload ▸ hsour⟩
  | duplicateKey =>
    left
    dsimp only at ha
    intro m hm
    rcases List.mem_append.mp hm with hm | hm
    · exact duplicate_idle hb m hm
    · refine Heeds.idle (?_ : Heeds _ _ fun _ => True) ha (htold₂ _) m hm
      refine Heeds.andThen Heeds.of_log fun _ =>
        Heeds.andThen ⟨rfl, fun _ _ _ _ => trivial⟩ fun found => ?_
      split
      · exact Heeds.andThen Heeds.of_log fun _ => Heeds.of_throw
      · split
        · exact Heeds.of_throw_bind
        · exact Heeds.of_pure trivial

theorem Service.lookup_heeds {key : String} : Heeds (.telling σ' fun call => call.writes = false)
    (do requireKey key; Program.getByKey key)
    fun found => ∀ r, found = some r → r.key = key ∧ σ'.Holds r :=
  Heeds.bind requireKey_heeds fun _ _ => ⟨rfl, fun _ ha found hf r hr => ha.1 r (by rw [hf, hr])⟩

/-- What is known of a request that failed like a check and was no check. -/
theorem Service.submit_refused {key : String} {check : Program ServiceError NewTransaction}
    {value : NewTransaction → Prop}
    (h : (submit s user key check).run.Runs σ mets (.value (.error e)) σ')
    (hc : ∀ m ∈ mets, m.reply.Candid) (he : e.Early)
    (hv : Heeds (.telling σ' fun call => call.writes = false) check value) :
    (∀ m ∈ mets, m.Idle) ∨ e = LedgerError.invalidAmount.toService ∧
      ∃ r ∈ σ'.table.rows, r.payload.Sour ∧ (r.key = key ∧ r.user = user ∧
        (∀ m ∈ mets, m.call.insertion = none) ∨ value r.payload) := by
  have htold := h.told hc fun call => call.writes = false
  rw [submit, ← bind_assoc] at h
  rcases Program.runs_bind h with h | ⟨found, σ₁, looked, rest, rfl, hlooked, h⟩
  · exact .inl (lookup_heeds.idle h htold)
  obtain ⟨htold₁, htold₂⟩ := List.forall_mem_append.mp htold
  have hidle₁ := lookup_heeds.idle hlooked htold₁
  have hfound := (Flow.Under.runs lookup_heeds hlooked htold₁).2 _ rfl found rfl
  cases found with
  | some existing =>
    obtain ⟨hkey, hholds⟩ := hfound existing rfl
    rcases replay_refused h (fun m hm => hc m (List.mem_append_right _ hm)) he hholds with
      hidle | ⟨hins, heq, r, hr, hsame, hu, hsour⟩
    · exact .inl (List.forall_mem_append.mpr ⟨hidle₁, hidle⟩)
    · refine .inr ⟨heq, r, hr, hsour, .inl ⟨hsame.key_eq.symm.trans hkey, hu, ?_⟩⟩
      refine List.forall_mem_append.mpr ⟨fun m hm => ?_, hins⟩
      exact Call.insertion_of_reads ((Flow.Under.runs lookup_heeds hlooked htold₁).1 m hm)
  | none =>
    rcases Program.runs_bind h with h | ⟨new, σ₂, checked, driven, rfl, hchecked, h⟩
    · exact .inl (List.forall_mem_append.mpr ⟨hidle₁, hv.idle h htold₂⟩)
    obtain ⟨htold₂, -⟩ := List.forall_mem_append.mp htold₂
    have hnew := (Flow.Under.runs hv hchecked htold₂).2 _ rfl new rfl
    have hidle₂ := hv.idle hchecked htold₂
    rcases createAndDrive_refused h
      (fun m hm => hc m (List.mem_append_right _ (List.mem_append_right _ hm))) he with
      hidle | ⟨heq, r, hr, rfl, hsour⟩
    · exact .inl (List.forall_mem_append.mpr ⟨hidle₁, List.forall_mem_append.mpr ⟨hidle₂, hidle⟩⟩)
    · exact .inr ⟨heq, r, hr, hsour, .inr hnew⟩

end

/-- A request that answers with the error of a check has moved no money and changed no record, unless
the ledger refused an amount of the record that it drove. A record that the request stored itself is
then one of a transfer, and its amount is worth nothing in the currency of the target. -/
theorem refused_before_effects {s : Service} {request : Request} {user : UserId} {key : String}
    {σ σ' : Stores} {mets : List Met} {e : ServiceError}
    (h : (request.program s user key).run.Runs σ mets (.value (.error e)) σ')
    (hc : ∀ m ∈ mets, m.reply.Candid) (he : e.Early) :
    (∀ m ∈ mets, m.Idle) ∨ e = LedgerError.invalidAmount.toService ∧
      ∃ r ∈ σ'.table.rows, r.key = key ∧ r.user = user ∧ r.payload.Sour ∧
        ((∃ m ∈ mets, ∃ new, m.effect = .inserted new) → r.type = .transfer ∧
          Decimal.zero < r.amount ∧ Money.convert r.amount r.rate = some r.targetAmount ∧
          r.targetAmount.isZero = true) := by
  have hq := Terms.telling_queries σ'
  have hquotes : (Terms.telling σ' fun call => call.writes = false).Quotes :=
    fun source target rate hr => hr.1 rate rfl
  have hrun := h
  rw [request.program_eq] at hrun
  rcases Service.submit_refused hrun hc he (request.check_heeds hq) with
    hidle | ⟨heq, r, hr, hsour, ⟨hkey, hu, hins⟩ | ⟨hkey, hu, hchecks, hpriced⟩⟩
  · exact .inl hidle
  · refine .inr ⟨heq, r, hr, hkey, hu, hsour, ?_⟩
    rintro ⟨m, hm, new, heff⟩
    obtain ⟨asked, hcall⟩ := h.insertion hm heff
    have hn := hins m hm
    rw [hcall] at hn
    cases hn
  · refine .inr ⟨heq, r, hr, hkey, hu, hsour, fun _ => ?_⟩
    obtain ⟨htype, hle⟩ := hpriced.sour hsour
    exact ⟨htype, hpriced.positive, hpriced.worth htype,
      Decimal.isZero_of_le hle (hchecks.owed hquotes)⟩

def tenth : Decimal := ⟨1, 1, by decide⟩

def cent : Decimal := ⟨1, 2, by decide⟩

def twoCurrencies : Stores where
  book := ((Book.openAccount {} 1 .usd hundred).2.openAccount 1 .eur .zero).2

def worthlessTransfer : Request := .transfer ⟨1, 2, cent, some 1⟩

def worthlessReplies : List Reply :=
  [.served 0, .served 0, .served 0, .elsewhere (.rates (.lookup .usd .eur)) (some tenth),
    .elsewhere (.categories (.find 1)) (.ok (some ⟨1, none, "FOOD"⟩)),
    .elsewhere (.limits (.find 1)) (.ok (some ⟨1, hundred, hundred⟩)), .elsewhere .now (0 : Int),
    .served 0, .served 0, .served 0, .served 0, .served 0, .served 0, .served 0, .served 0, .served 0]

theorem runs_worthlessTransfer : ∃ mets σ',
    (worthlessTransfer.program plainService 1 "a").run.Runs twoCurrencies mets
      (.value (.error LedgerError.invalidAmount.toService)) σ' ∧
    (∀ m ∈ mets, m.reply.Candid) ∧
    (∃ m ∈ mets, m.call = .ledger (.mutate .debit 1 cent (.forward 1))) ∧
    σ'.book.applied.map (·.amount) = [-cent, cent] ∧ σ'.table.rows.map (·.status) = [.failed] := by
  obtain ⟨⟨v, calls, σ'⟩, hrun, hmap⟩ := Option.map_eq_some_iff.mp (show
    ((worthlessTransfer.program plainService 1 "a").run.outcome worthlessReplies twoCurrencies).map
      (fun ended => (ended.1.map fun _ => (),
        decide (.ledger (.mutate .debit 1 cent (.forward 1)) ∈ ended.2.1),
        ended.2.2.book.applied.map (·.amount), ended.2.2.table.rows.map (·.status))) =
      some (.error LedgerError.invalidAmount.toService, true, [-cent, cent], [.failed])
    by decide +kernel)
  simp only [Prod.mk.injEq, decide_eq_true_eq] at hmap
  obtain ⟨hv, hcall, happlied, hstatus⟩ := hmap
  obtain rfl : v = .error LedgerError.invalidAmount.toService := by
    cases v with
    | ok => cases hv
    | error e => rw [Except.error.inj hv]
  obtain ⟨mets, hruns, hcalls, hreplies⟩ := Flow.runs_of_outcome hrun TransactionTable.sound_empty
  refine ⟨mets, σ', hruns, fun m hm => ?_, ?_, happlied, hstatus⟩
  · have hcandid : ∀ reply ∈ worthlessReplies, reply.Candid := by
      simp [worthlessReplies, Reply.Candid, Decimal.lt_def, tenth, Decimal.zero, tenTo]
    exact hcandid _ (hreplies ▸ List.mem_map_of_mem hm)
  · rw [← hcalls] at hcall
    obtain ⟨m, hm, hmcall⟩ := List.mem_map.mp hcall
    exact ⟨m, hm, hmcall⟩

/-- The transfer of a cent is turned down like one that never began, after a debit, a refund and a
record of the failure. -/
theorem refused_after_worthlessTransfer : ∃ mets σ' e,
    (worthlessTransfer.program plainService 1 "a").run.Runs twoCurrencies mets
      (.value (.error e)) σ' ∧
    (∀ m ∈ mets, m.reply.Candid) ∧ e.kind = .validation ∧ ¬(∀ m ∈ mets, m.Idle) ∧
    σ'.book.applied.map (·.amount) = [-cent, cent] ∧ σ'.table.rows.map (·.status) = [.failed] := by
  obtain ⟨mets, σ', hruns, hcandid, ⟨m, hm, hcall⟩, happlied, hstatus⟩ := runs_worthlessTransfer
  exact ⟨mets, σ', _, hruns, hcandid, rfl, fun hidle => (hidle m hm).call _ _ _ _ hcall, happlied,
    hstatus⟩

theorem refused_before_effects_worthlessTransfer : ∃ mets σ',
    (worthlessTransfer.program plainService 1 "a").run.Runs twoCurrencies mets
      (.value (.error LedgerError.invalidAmount.toService)) σ' ∧
    (∀ m ∈ mets, m.reply.Candid) ∧ LedgerError.invalidAmount.toService.Early ∧
    ∃ r ∈ σ'.table.rows, r.key = "a" ∧ r.user = 1 ∧ r.payload.Sour := by
  obtain ⟨mets, σ', hruns, hcandid, ⟨m, hm, hcall⟩, -, -⟩ := runs_worthlessTransfer
  have hearly : LedgerError.invalidAmount.toService.Early := .inl rfl
  rcases refused_before_effects hruns hcandid hearly with hidle | ⟨-, r, hr, hkey, hu, hsour, -⟩
  · exact absurd hcall ((hidle m hm).call _ _ _ _)
  · exact ⟨mets, σ', hruns, hcandid, hearly, r, hr, hkey, hu, hsour⟩

end Settlement
