import Settlement.Proofs.Pending
import Settlement.Proofs.Recoveries
import Settlement.Proofs.Waiting

/-!
One driver at a store that never fails, and a ledger that may answer anything. Main statement: whatever
the ledger answers, a drive is a number of executions of the strategy, and one of six endings.
-/

namespace Settlement

namespace TransactionTable

/-- The store never fails, and nobody else is at it. What the ledger and all others answer is open. -/
def serves : Surroundings Call.Answer TransactionTable
  | .store call, t, a, t' => ∃ now, answer now call t = (.value a, t')
  | _, t, _, t' => t' = t

def serving (now : Instant) (ledger : (call : LedgerCall) → call.Answer) :
    (call : Call) → TransactionTable → Option (call.Answer × TransactionTable)
  | .store call, t => serve now call t
  | .ledger call, t => some (ledger call, t)
  | .pause _, t => some ((), t)
  | _, _ => none

theorem serves_of_serving {now : Instant} {ledger : (call : LedgerCall) → call.Answer} (call : Call)
    (t : TransactionTable) (a : call.Answer) (t' : TransactionTable)
    (h : serving now ledger call t = some (a, t')) : serves call t a t' := by
  cases call with
  | store call => exact ⟨now, answer_of_serve h⟩
  | ledger | pause =>
    cases h
    rfl
  | limits | categories | rates | now => cases h

/-- Whatever is answered, a call counts an attempt only if it takes the record up. -/
theorem serves_uptakes {call : Call} {t : TransactionTable} {a : call.Answer} {t' : TransactionTable}
    (h : serves call t a t') (id : TransactionId) :
    t.Uptakes id (if call = .store (.markProcessing id) then 1 else 0) t' := by
  cases call with
  | store call =>
    obtain ⟨now, ha⟩ := h
    have hu := t.answer_uptakes now call id
    rw [ha] at hu
    simpa using hu
  | ledger | limits | categories | rates | now | pause =>
    cases h
    exact .of_eq rfl

section

variable {t t' : TransactionTable} {id : TransactionId} {r : TransactionRecord} {w : Write}

theorem serves_get {a : Except ServiceError (Option TransactionRecord)} (hr : t.row? id = some r)
    (h : serves (.store (.get id)) t a t') : a = .ok (some r) ∧ t' = t := by
  obtain ⟨now, ha⟩ := h
  obtain ⟨ha, ht⟩ := Prod.mk.inj ha
  rw [hr] at ha
  exact ⟨(Flow.Outcome.value.inj ha).symm, ht.symm⟩

/-- One argument for the three conditional writes. -/
theorem served_update {a : Except ServiceError Bool} (hr : t.row? id = some r)
    (ha : w.allows r = true)
    (h : ∃ now, (Flow.Outcome.value (.ok (t.update id w.allows (w.apply now)).1),
      (t.update id w.allows (w.apply now)).2) = (.value a, t')) :
    a = .ok true ∧ ∃ now, t'.row? id = some (w.apply now r) := by
  obtain ⟨now, h⟩ := h
  obtain ⟨hv, rfl⟩ := Prod.mk.inj h
  obtain ⟨hdone, hrow⟩ := update_allowed hr ha now
  rw [hdone] at hv
  exact ⟨(Flow.Outcome.value.inj hv).symm, now, hrow⟩

theorem serves_markProcessing {a : Except ServiceError Bool} (hr : t.row? id = some r)
    (ho : r.status.isTerminal = false) (h : serves (.store (.markProcessing id)) t a t') :
    a = .ok true ∧ ∃ now, t'.row? id = some (Write.take.apply now r) :=
  served_update (w := .take) hr (by simp [Write.allows, ho]) h

theorem serves_advanceStep {a : Except ServiceError Bool} {step : TransactionStep}
    (hr : t.row? id = some r) (ho : r.status.isTerminal = false) (hs : r.step < step)
    (h : serves (.store (.advanceStep id step)) t a t') :
    a = .ok true ∧ ∃ now, t'.row? id = some ((Write.advance step).apply now r) :=
  served_update (w := .advance step) hr (by simp [Write.allows, ho, hs]) h

theorem serves_finalize {a : Except ServiceError Bool} {fin : Finalization} (hr : t.row? id = some r)
    (ho : r.status.isTerminal = false) (h : serves (.store (.finalize id fin)) t a t') :
    a = .ok true ∧ ∃ now, t'.row? id = some ((Write.close fin).apply now r) :=
  served_update (w := .close fin) hr (by simp [Write.allows, ho]) h

end

def Keeps (t : TransactionTable) (tx : TransactionRecord) (step : TransactionStep) : Prop :=
  ∃ now, t.row? tx.id = some { tx with step, updatedAt := now }

end TransactionTable

abbrev Passage := Visit Call.Answer TransactionTable

def Leg.asked (leg : Leg) (tx : TransactionRecord) (account : AccountId) (t : TransactionTable)
    (a : Except LedgerError MutationOutcome) : Passage :=
  ⟨t, .ledger (.mutate leg.direction account (leg.amount tx.payload) ⟨tx.id, leg.phase⟩), a⟩

namespace TransactionRecord

def advanced (tx : TransactionRecord) (step : TransactionStep) (t : TransactionTable) : Passage :=
  ⟨t, .store (.advanceStep tx.id step), .ok true⟩

inductive Credits (tx : TransactionRecord) (source target : AccountId) (t : TransactionTable) :
    List Passage → Except StrategyFailure Unit → TransactionStep → Prop
  | credited {outcome : MutationOutcome} :
      Credits tx source target t [Leg.credit.asked tx target t (.ok outcome), tx.advanced .creditDone t]
        (.ok ()) .creditDone
  | contended {e : LedgerError} (credit : e.isRetryable = true) :
      Credits tx source target t [Leg.credit.asked tx target t (.error e)] (.error (.ofLedger e))
        .debitDone
  | refunded {e : LedgerError} {outcome : MutationOutcome} (credit : e.isRetryable = false) :
      Credits tx source target t
        [Leg.credit.asked tx target t (.error e), Leg.refund.asked tx source t (.ok outcome)]
        (.error ⟨e.toService, .succeeded⟩) .debitDone
  /-- The refund is left to another attempt. -/
  | postponed {e r : LedgerError} (credit : e.isRetryable = false) (refund : r.isRetryable = true) :
      Credits tx source target t
        [Leg.credit.asked tx target t (.error e), Leg.refund.asked tx source t (.error r)]
        (.error (.ofLedger r)) .debitDone
  | stranded {e r : LedgerError} {text : String} (credit : e.isRetryable = false)
      (refund : r.isRetryable = false) :
      Credits tx source target t
        [Leg.credit.asked tx target t (.error e), Leg.refund.asked tx source t (.error r)]
        (.error ⟨.compensationFailed text, .failed⟩) .debitDone

inductive Executes (tx : TransactionRecord) (t : TransactionTable) :
    List Passage → Except StrategyFailure Unit → TransactionStep → Prop
  | undebited {source : AccountId} {e : LedgerError} (type : tx.type = .transfer)
      (step : tx.step = .none) :
      Executes tx t [Leg.debit.asked tx source t (.error e)] (.error (.ofLedger e)) tx.step
  | debited {source target : AccountId} {outcome : MutationOutcome} {t₁ : TransactionTable}
      {vs : List Passage} {result : Except StrategyFailure Unit} {step' : TransactionStep}
      (type : tx.type = .transfer) (step : tx.step = .none) (done : t₁.Keeps tx .debitDone)
      (rest : Credits tx source target t₁ vs result step') :
      Executes tx t (Leg.debit.asked tx source t (.ok outcome) :: tx.advanced .debitDone t :: vs)
        result step'
  | resumed {source target : AccountId} {vs : List Passage} {result : Except StrategyFailure Unit}
      {step' : TransactionStep} (type : tx.type = .transfer) (step : tx.step = .debitDone)
      (done : t.Keeps tx .debitDone) (rest : Credits tx source target t vs result step') :
      Executes tx t vs result step'
  | credited (type : tx.type = .transfer) (step : tx.step = .creditDone) :
      Executes tx t [] (.ok ()) tx.step
  | moved (leg : Leg) {account : AccountId} {outcome : MutationOutcome} (type : tx.type ≠ .transfer)
      (own : leg.type = tx.type) : Executes tx t [leg.asked tx account t (.ok outcome)] (.ok ()) tx.step
  | refused (leg : Leg) {account : AccountId} {e : LedgerError} (type : tx.type ≠ .transfer)
      (own : leg.type = tx.type) :
      Executes tx t [leg.asked tx account t (.error e)] (.error (.ofLedger e)) tx.step

inductive Compensates (tx : TransactionRecord) (t : TransactionTable) :
    List Passage → Except ServiceError Compensation → Prop
  | unneeded (none : tx.type ≠ .transfer ∨ tx.step ≠ .debitDone) : Compensates tx t [] (.ok .notNeeded)
  | refunded {source : AccountId} {outcome : MutationOutcome} (step : tx.step = .debitDone) :
      Compensates tx t [Leg.refund.asked tx source t (.ok outcome)] (.ok .refunded)
  | stranded {source : AccountId} {e : LedgerError} (step : tx.step = .debitDone)
      (refund : e.isRetryable = false) :
      Compensates tx t [Leg.refund.asked tx source t (.error e)] (.ok (.failed source e))
  | postponed {source : AccountId} {e : LedgerError} (step : tx.step = .debitDone)
      (refund : e.isRetryable = true) :
      Compensates tx t [Leg.refund.asked tx source t (.error e)] (.error e.toService)

theorem Compensates.retryable {tx : TransactionRecord} {t : TransactionTable} {vs : List Passage}
    {e : ServiceError} (h : tx.Compensates t vs (.error e)) : e.isRetryable = true := by
  cases h with
  | postponed _ refund => rwa [LedgerError.toService_isRetryable]

end TransactionRecord

/-- An execution of the strategy by a drive: the tables that it meets, the record that it works from,
what it asks for, and its result. -/
structure Round where
  found : TransactionTable
  begun : TransactionTable
  record : TransactionRecord
  asked : List Passage
  result : Except StrategyFailure Unit
  left : TransactionTable

namespace Round

def contended (x : Round) : Bool :=
  match x.result with
  | .error f => f.isRetryable
  | .ok () => false

theorem contended_of_error {x : Round} {f : StrategyFailure} (h : x.result = .error f) :
    x.contended = f.isRetryable := by
  rw [contended, h]

theorem contended_of_ok {x : Round} (h : x.result = .ok ()) : x.contended = false := by
  rw [contended, h]

def visits (x : Round) : List Passage :=
  ⟨x.found, .store (.markProcessing x.record.id), .ok true⟩ ::
    ⟨x.begun, .store (.get x.record.id), .ok (some x.record)⟩ :: x.asked

structure Takes (s : Service) (t : TransactionTable) (r r' : TransactionRecord) (x : Round) : Prop where
  found : x.found = t
  record : ∃ now, x.record = Write.take.apply now r
  begun : x.begun.row? r.id = some x.record
  goes : (s.execute x.record.type x.record).run.Goes TransactionTable.serves x.begun x.asked
    (.value x.result) x.left
  executes : ∃ step now, x.record.Executes x.begun x.asked x.result step ∧
    r' = { x.record with step, updatedAt := now }
  left : x.left.row? r.id = some r'

section

variable {s : Service} {t : TransactionTable} {r r' : TransactionRecord} {x : Round}

theorem Takes.left_id (h : x.Takes s t r r') : r'.id = r.id :=
  (TransactionTable.mem_of_row? h.left).2

/-- What a round changes in its record. -/
theorem Takes.leaves (h : x.Takes s t r r') : ∃ step now,
    r' = { r with status := .processing, attempts := r.attempts + 1, step, updatedAt := now } := by
  obtain ⟨now, hrecord⟩ := h.record
  obtain ⟨step, now', -, rfl⟩ := h.executes
  rw [hrecord]
  exact ⟨step, now', rfl⟩

theorem Takes.pending (h : x.Takes s t r r') (hp : r.Pending) : r'.Pending := by
  obtain ⟨step, now, rfl⟩ := h.leaves
  exact ⟨rfl, hp.formed, hp.uncompensated⟩

end

/-- The endings of a drive after its last round, with what it answers and the record that it leaves. -/
inductive Ends (x : Round) (r : TransactionRecord) :
    List Passage → Except ServiceError TransactionView → TransactionRecord → Prop
  | completed {t : TransactionTable} {r' : TransactionRecord} {now : Instant} (done : x.result = .ok ())
      (closed : r' = (Write.close .completed).apply now r) :
      Ends x r [⟨x.left, .store (.finalize r.id .completed), .ok true⟩,
        ⟨t, .store (.get r.id), .ok (some r')⟩] (.ok r'.view) r'
  | failed {f : StrategyFailure} {fin : Finalization} {now : Instant} (failure : x.result = .error f)
      (final : f.isRetryable = false) (built : fin = .failed f.error.message f.compensation) :
      Ends x r [⟨x.left, .store (.finalize r.id fin), .ok true⟩] (.error f.error)
        ((Write.close fin).apply now r)
  | exhausted {f : StrategyFailure} {vs : List Passage} {c : Compensation} {message : String}
      {e : ServiceError} {fin : Finalization} {now : Instant} (failure : x.result = .error f)
      (conflict : f.isRetryable = true) (rest : r.Compensates x.left vs (.ok c))
      (told : Service.exhaustion r f.error c = (message, e)) (built : fin = .failed message c.status) :
      Ends x r (⟨x.left, .store (.get r.id), .ok (some r)⟩ ::
        (vs ++ [⟨x.left, .store (.finalize r.id fin), .ok true⟩])) (.error e)
        ((Write.close fin).apply now r)
  /-- The record stays open. -/
  | postponed {f : StrategyFailure} {vs : List Passage} {e : ServiceError}
      (failure : x.result = .error f) (conflict : f.isRetryable = true)
      (rest : r.Compensates x.left vs (.error e)) :
      Ends x r (⟨x.left, .store (.get r.id), .ok (some r)⟩ :: vs) (.error f.error) r

end Round

/-- What a drive asks for: its rounds, with a pause after each but the last, and its ending. -/
def Service.script (s : Service) : (number : Nat) → List Round → (ending : List Passage) →
    List Passage
  | _, [], ending => ending
  | _, [x], ending => x.visits ++ ending
  | number, x :: y :: rounds, ending =>
    x.visits ++ ⟨x.left, .pause (s.retry.backoff number), ()⟩ ::
      s.script (number + 1) (y :: rounds) ending

inductive Service.Attempts (s : Service) : (left : Nat) → TransactionTable → TransactionRecord →
    List Round → (ending : List Passage) → Except ServiceError TransactionView → TransactionRecord → Prop
  | last {left : Nat} {t : TransactionTable} {r r₁ r' : TransactionRecord} {x : Round}
      {ending : List Passage} {result : Except ServiceError TransactionView}
      (round : x.Takes s t r r₁) (spent : x.contended = true → left = 0)
      (ends : x.Ends r₁ ending result r') : Attempts s left t r [x] ending result r'
  | again {left : Nat} {t : TransactionTable} {r r₁ r' : TransactionRecord} {x : Round}
      {rounds : List Round} {ending : List Passage} {result : Except ServiceError TransactionView}
      (round : x.Takes s t r r₁) (contended : x.contended = true)
      (later : Attempts s left x.left r₁ rounds ending result r') :
      Attempts s (left + 1) t r (x :: rounds) ending result r'

def Service.Spends (s : Service) (left number : Nat) (t : TransactionTable) (r : TransactionRecord)
    (vs : List Passage) (result : Except ServiceError TransactionView) (t' : TransactionTable) : Prop :=
  ∃ rounds ending r', s.Attempts left t r rounds ending result r' ∧
    vs = s.script number rounds ending ∧ t'.row? r.id = some r'

section

variable {s : Service} {left number : Nat} {t t' : TransactionTable} {r r₁ r' : TransactionRecord}
  {x : Round} {vs : List Passage} {result : Except ServiceError TransactionView}

theorem Service.Attempts.script_again {rounds : List Round} {ending : List Passage}
    (h : s.Attempts left t r rounds ending result r') :
    s.script number (x :: rounds) ending = x.visits ++
      ⟨x.left, .pause (s.retry.backoff number), ()⟩ :: s.script (number + 1) rounds ending := by
  cases h <;> rfl

theorem Service.Spends.last (round : x.Takes s t r r₁) (spent : x.contended = true → left = 0)
    (ends : ∃ r', x.Ends r₁ vs result r' ∧ t'.row? r.id = some r') :
    s.Spends left number t r (x.visits ++ vs) result t' := by
  obtain ⟨r', hends, hr'⟩ := ends
  exact ⟨[x], vs, r', .last round spent hends, rfl, hr'⟩

theorem Service.Spends.again (round : x.Takes s t r r₁) (contended : x.contended = true)
    (later : s.Spends left (number + 1) x.left r₁ vs result t') :
    s.Spends (left + 1) number t r
      (x.visits ++ ⟨x.left, .pause (s.retry.backoff number), ()⟩ :: vs) result t' := by
  obtain ⟨rounds, ending, r', hlater, rfl, hr'⟩ := later
  exact ⟨x :: rounds, ending, r', .again round contended hlater, hlater.script_again.symm,
    round.left_id ▸ hr'⟩

end

namespace Service

open Program Fallible Reports TransactionTable TransactionRecord

variable {s : Service} {id : TransactionId} {tx : TransactionRecord} {source target : AccountId}
  {t : TransactionTable}

section

variable {past : List Passage} {broke : TransactionTable × List Passage → Prop}

theorem refund_reports {ok : Unit → TransactionTable × List Passage → Prop}
    {err : LedgerError → TransactionTable × List Passage → Prop}
    (ho : ∀ outcome, ok () (t, past ++ [Leg.refund.asked tx source t (.ok outcome)]))
    (he : ∀ e, err e (t, past ++ [Leg.refund.asked tx source t (.error e)])) :
    Reports (Flow.tracing serves) (refund tx source) ok err broke (t, past) := by
  unfold refund
  rw [of_bind, of_attempt]
  rintro a _ rfl
  cases a with
  | ok outcome => exact ho outcome
  | error e => exact he e

variable {err : ServiceError → TransactionTable × List Passage → Prop}

theorem load_reports {ok : TransactionRecord → TransactionTable × List Passage → Prop}
    (hr : t.row? id = some tx) (ho : ok tx (t, past ++ [⟨t, .store (.get id), .ok (some tx)⟩])) :
    Reports (Flow.tracing serves) (load id) ok err broke (t, past) := by
  unfold load
  rw [of_bind]
  intro a t' ha
  obtain ⟨rfl, rfl⟩ := serves_get hr ha
  exact ho

theorem close_reports {ok : Unit → TransactionTable × List Passage → Prop} {fin : Finalization}
    (hr : t.row? id = some tx) (ho : tx.status.isTerminal = false)
    (hok : ∀ now t', t'.row? id = some ((Write.close fin).apply now tx) →
      ok () (t', past ++ [⟨t, .store (.finalize id fin), .ok true⟩])) :
    Reports (Flow.tracing serves) (close id fin) ok err broke (t, past) := by
  unfold close
  rw [of_bind]
  intro a t' ha
  obtain ⟨rfl, now, hr'⟩ := serves_finalize hr ho ha
  exact hok now t' hr'

end

theorem creditTarget_returns (hk : t.Keeps tx .debitDone) (ho : tx.status.isTerminal = false) :
    Returns serves (creditTarget s tx source target) t fun vs result t' =>
      ∃ step, Credits tx source target t vs result step ∧ t'.Keeps tx step := by
  refine .of_reports ?_
  unfold creditTarget
  rw [of_bind, of_attempt]
  intro a t' ha
  cases ha
  cases a with
  | ok outcome =>
    obtain ⟨_, hr⟩ := hk
    show Reports _ (mapError _ _ >>= _) _ _ _ _
    rw [of_bind, of_mapError]
    intro a t' ha
    obtain ⟨rfl, now, hr'⟩ :=
      serves_advanceStep hr ho (show TransactionStep.debitDone < .creditDone by decide) ha
    exact ⟨.creditDone, .credited, now, hr'⟩
  | error e =>
    show Reports _ (if _ then _ else _) _ _ _ _
    split
    next he => exact ⟨_, .contended he, hk⟩
    next he =>
      have he := Bool.eq_false_iff.mpr he
      show Reports _ (refundAfter _ _ _ _) _ _ _ _
      unfold refundAfter
      rw [of_bind, of_attempt]
      refine refund_reports (fun outcome => ⟨_, .refunded he, hk⟩) fun e => ?_
      show Reports _ (if _ then _ else _) _ _ _ _
      split
      next hr => exact ⟨_, .postponed he hr, hk⟩
      next hr => exact ⟨_, .stranded he (Bool.eq_false_iff.mpr hr), hk⟩

/-- An execution of the strategy on the stored record. -/
theorem execute_returns (hr : t.row? tx.id = some tx) (ho : tx.status.isTerminal = false)
    (hw : tx.payload.WellFormed) :
    Returns serves (execute s tx.type tx) t fun vs result t' =>
      ∃ step, Executes tx t vs result step ∧ t'.Keeps tx step := by
  have hk : t.Keeps tx tx.step := ⟨tx.updatedAt, hr⟩
  refine .of_reports ?_
  cases ht : tx.type with
  | transfer =>
    obtain ⟨source, target, hsource, htarget, -⟩ := hw.transfer ht
    show Reports _ (executeTransfer s tx) _ _ _ _
    unfold executeTransfer sourceOf targetOf
    simp only [hsource, htarget, Except.mapError, of_bind, of_known, Closes]
    cases hs : tx.step with
    | none =>
      show Reports _ (debitSource s tx source >>= _) _ _ _ _
      unfold debitSource
      rw [of_bind, of_bind, of_mapError]
      intro a t' ha
      cases ha
      cases a with
      | ok outcome =>
        show Reports _ (mapError _ _ >>= _) _ _ _ _
        rw [of_bind, of_mapError]
        intro a t₁ ha
        obtain ⟨rfl, now, hr₁⟩ :=
          serves_advanceStep hr ho (show tx.step < .debitDone by rw [hs]; decide) ha
        have hk₁ : t₁.Keeps tx .debitDone := ⟨now, hr₁⟩
        refine ((creditTarget_returns hk₁ ho).reports _).mono ?_ ?_ fun _ h => h
        · rintro _ ⟨t', _⟩ ⟨vs, rfl, step, hc, hk'⟩
          exact ⟨step, .debited ht hs hk₁ hc, hk'⟩
        · rintro f ⟨t', _⟩ ⟨vs, rfl, step, hc, hk'⟩
          exact ⟨step, .debited ht hs hk₁ hc, hk'⟩
      | error e => exact ⟨_, .undebited ht hs, hk⟩
    | debitDone =>
      rw [hs] at hk
      refine ((creditTarget_returns hk ho).reports []).mono ?_ ?_ fun _ h => h
      · rintro _ ⟨t', _⟩ ⟨vs, rfl, step, hc, hk'⟩
        exact ⟨step, .resumed ht hs hk hc, hk'⟩
      · rintro f ⟨t', _⟩ ⟨vs, rfl, step, hc, hk'⟩
        exact ⟨step, .resumed ht hs hk hc, hk'⟩
    | creditDone => exact ⟨_, .credited ht hs, hk⟩
  | deposit =>
    obtain ⟨target, -, htarget⟩ := hw.deposit ht
    show Reports _ (executeDeposit s tx) _ _ _ _
    unfold executeDeposit targetOf
    simp only [htarget, Except.mapError, of_bind, of_known, Closes]
    rw [of_mapError]
    intro a t' ha
    cases ha
    have hn : tx.type ≠ .transfer := by simp [ht]
    cases a with
    | ok outcome => exact ⟨_, .moved .deposit hn ht.symm, hk⟩
    | error e => exact ⟨_, .refused .deposit hn ht.symm, hk⟩
  | withdraw =>
    obtain ⟨source, hsource, -⟩ := hw.withdraw ht
    show Reports _ (executeWithdraw s tx) _ _ _ _
    unfold executeWithdraw sourceOf
    simp only [hsource, Except.mapError, of_bind, of_known, Closes]
    rw [of_mapError]
    intro a t' ha
    cases ha
    have hn : tx.type ≠ .transfer := by simp [ht]
    cases a with
    | ok outcome => exact ⟨_, .moved .withdraw hn ht.symm, hk⟩
    | error e => exact ⟨_, .refused .withdraw hn ht.symm, hk⟩

theorem compensate_returns (hw : tx.payload.WellFormed) :
    Returns serves (compensate tx.type tx) t fun vs result t' =>
      Compensates tx t vs result ∧ t' = t := by
  refine .of_reports ?_
  unfold compensate
  split
  next hn => exact ⟨.unneeded hn, rfl⟩
  next hn =>
    obtain ⟨ht, hs⟩ := not_or.mp hn
    obtain ⟨source, target, hsource, -⟩ := hw.transfer (not_not.mp ht)
    simp only [sourceOf, hsource, of_bind, of_known, Closes, of_attempt]
    refine refund_reports (fun outcome => ⟨.refunded (not_not.mp hs), rfl⟩) fun e => ?_
    show Reports _ (if _ then _ else _) _ _ _ _
    split
    next he => exact ⟨.postponed (not_not.mp hs) he, rfl⟩
    next he => exact ⟨.stranded (not_not.mp hs) (Bool.eq_false_iff.mpr he), rfl⟩

section

variable {x : Round} {f : StrategyFailure}

theorem complete_reports {past : List Passage} {broke : TransactionTable × List Passage → Prop}
    {err : ServiceError → TransactionTable × List Passage → Prop}
    {ok : TransactionView → TransactionTable × List Passage → Prop} (hx : x.result = .ok ())
    (hr : x.left.row? tx.id = some tx) (ho : tx.status.isTerminal = false) {level : Log.Level}
    {target message : String} {fields : List (String × Log.FieldValue)}
    (hok : ∀ vs r' t', x.Ends tx vs (.ok r'.view) r' → t'.row? tx.id = some r' →
      ok r'.view (t', past ++ vs)) :
    Reports (Flow.tracing serves)
      (do close tx.id .completed; log level target message fields; viewOf tx.id) ok err broke
      (x.left, past) := by
  rw [of_bind]
  refine close_reports hr ho fun now t' hr' => ?_
  rw [of_bind, of_log, viewOf, of_map]
  refine load_reports hr' ?_
  rw [List.append_assoc]
  exact hok _ _ _ (.completed hx rfl) hr'

theorem fail_returns (hx : x.result = .error f) (hf : f.isRetryable = false)
    (hr : x.left.row? tx.id = some tx) (ho : tx.status.isTerminal = false) :
    Returns serves (fail tx.id f >>= throw : Program ServiceError TransactionView) x.left
      fun vs result t' => ∃ r', x.Ends tx vs result r' ∧ t'.row? tx.id = some r' := by
  refine .of_reports ?_
  unfold fail
  rw [of_bind, of_bind]
  refine close_reports hr ho fun now t' hr' => ?_
  split
  · exact ⟨_, .failed hx hf rfl, hr'⟩
  · exact ⟨_, .failed hx hf rfl, hr'⟩

theorem failExhausted_returns (hx : x.result = .error f) (hf : f.isRetryable = true)
    (hr : x.left.row? tx.id = some tx) (hp : tx.Pending) :
    Returns serves
      (failExhausted s tx.type tx.id f.error >>= throw : Program ServiceError TransactionView) x.left
      fun vs result t' => ∃ r', x.Ends tx vs result r' ∧ t'.row? tx.id = some r' := by
  refine .of_reports ?_
  unfold failExhausted
  rw [of_bind, of_bind]
  refine load_reports hr ?_
  rw [of_bind, of_attempt]
  refine ((compensate_returns hp.formed).reports _).mono ?_ ?_ fun _ h => h
  · rintro c ⟨t', _⟩ ⟨vs, rfl, hc, rfl⟩
    show Reports _ (close tx.id _ >>= _) _ _ _ _
    rw [of_bind]
    refine close_reports hr hp.live fun now t' hr' => ?_
    exact ⟨_, .exhausted hx hf hc rfl rfl, hr'⟩
  · rintro e ⟨t', _⟩ ⟨vs, rfl, hc, rfl⟩
    show Reports _ (if _ then _ else _) _ _ _ _
    rw [if_pos hc.retryable]
    exact ⟨_, .postponed hx hf hc, hr⟩

/-- An attempt that is the last one, or has the attempts to come `again`. -/
theorem attemptOnce_returns {left number : Nat}
    {again : Option (Unit → Program ServiceError TransactionView)} (hlast : again = none → left = 0)
    (hnext : ∀ next, again = some next → ∃ fewer, left = fewer + 1 ∧ ∀ {t r},
      t.row? tx.id = some r → r.Pending → Returns serves (next ()) t (s.Spends fewer (number + 1) t r))
    (hr : t.row? tx.id = some tx) (hp : tx.Pending) :
    Returns serves (attemptOnce s tx.id number again) t (s.Spends left number t tx) := by
  refine .of_reports ?_
  unfold attemptOnce
  rw [of_bind]
  intro a t₁ ha
  obtain ⟨rfl, now, hr₁⟩ := serves_markProcessing hr hp.live ha
  show Reports _ (load tx.id >>= _) _ _ _ _
  rw [of_bind]
  let taken := Write.take.apply now tx
  have hr₁ : t₁.row? taken.id = some taken := hr₁
  refine load_reports hr₁ ?_
  rw [of_bind, of_log, of_bind, of_attempt]
  refine Flow.tells_tracing.mpr fun asked outcome t₂ hgoes => ?_
  obtain ⟨result, rfl, step, hx, later, hr₂⟩ := execute_returns hr₁ rfl hp.formed _ _ _ hgoes
  let x : Round := ⟨t, t₁, taken, asked, result, t₂⟩
  have hround : x.Takes s t tx { x.record with step, updatedAt := later } :=
    ⟨rfl, ⟨now, rfl⟩, hr₁, hgoes, ⟨step, later, hx, rfl⟩, hr₂⟩
  have hp₂ := hround.pending hp
  cases hres : result with
  | ok =>
    refine complete_reports (x := x) hres hr₂ hp₂.live fun vs r' t' hends hr' => ?_
    exact .last hround (by simp [Round.contended_of_ok (x := x) hres]) ⟨r', hends, hr'⟩
  | error f =>
    show Reports _ (if _ then _ else _) _ _ _ _
    split
    next hf =>
      have hcontended : x.contended = true := (Round.contended_of_error hres).trans hf
      cases hagain : again with
      | none =>
        have hexhausted := failExhausted_returns (s := s) (x := x) hres hf hr₂ hp₂
        refine (hexhausted.reports x.visits).mono ?_ ?_ fun _ h => h
        · rintro view ⟨t', _⟩ ⟨vs, rfl, hends⟩
          exact .last hround (fun _ => hlast hagain) hends
        · rintro e ⟨t', _⟩ ⟨vs, rfl, hends⟩
          exact .last hround (fun _ => hlast hagain) hends
      | some next =>
        obtain ⟨fewer, rfl, hreturns⟩ := hnext next hagain
        dsimp only
        rw [of_bind, of_log, of_bind]
        intro _ t₃ ht
        cases ht
        refine ((hreturns hr₂ hp₂).reports _).mono ?_ ?_ fun _ h => h
        · rintro view ⟨t', _⟩ ⟨vs, rfl, hlater⟩
          rw [List.append_assoc]
          exact .again hround hcontended hlater
        · rintro e ⟨t', _⟩ ⟨vs, rfl, hlater⟩
          rw [List.append_assoc]
          exact .again hround hcontended hlater
    next hf =>
      have hf := Bool.eq_false_iff.mpr hf
      have hfinal : x.contended = true → left = 0 := by
        simp [Round.contended_of_error (x := x) hres, hf]
      refine ((fail_returns (x := x) hres hf hr₂ hp₂.live).reports x.visits).mono ?_ ?_ fun _ h => h
      · rintro view ⟨t', _⟩ ⟨vs, rfl, hends⟩
        exact .last hround hfinal hends
      · rintro e ⟨t', _⟩ ⟨vs, rfl, hends⟩
        exact .last hround hfinal hends

theorem driveFrom_returns {left number : Nat} (hr : t.row? id = some tx) (hp : tx.Pending) :
    Returns serves (driveFrom s id left number) t (s.Spends left number t tx) := by
  obtain rfl := (mem_of_row? hr).2
  induction left generalizing number t tx with
  | zero => exact attemptOnce_returns (fun _ => rfl) (by simp) hr hp
  | succ left ih =>
    refine attemptOnce_returns (by simp) ?_ hr hp
    rintro _ ⟨⟩
    refine ⟨left, rfl, fun {t r} hr hp => ?_⟩
    have hid := (mem_of_row? hr).2
    rw [← hid] at hr ⊢
    exact ih hp hr

end
end Service
end Settlement
