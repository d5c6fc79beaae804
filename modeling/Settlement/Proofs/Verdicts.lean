import Settlement.Proofs.Attempts

/-!
What a drive answers, and what its record says then: whoever asks the drive and whoever reads the record
learn the same.
-/

namespace Settlement

def Passage.contended : Passage → Bool
  | ⟨_, .ledger (.mutate ..), .error e⟩ => e.isRetryable
  | _ => false

namespace TransactionRecord

/-- The record was closed with a conflict, and no money is lost. -/
structure GivenUp (r : TransactionRecord) (conflict : ServiceError) : Prop where
  status : r.status = .failed
  message : r.errorMessage = some ("Retry limit exceeded: " ++ conflict.message)
  compensation : r.compensation = .none ∨ r.compensation = .succeeded

/-- The record is left for a recovery, since the last of the refunds met a conflict. -/
structure LeftOpen (r : TransactionRecord) (vs : List Passage) : Prop where
  status : r.status = .processing
  step : r.step = .debitDone
  compensation : r.compensation = .none
  contended : ∃ v, (vs.filter fun v => v.question.refunds).getLast? = some v ∧ v.contended = true

end TransactionRecord

/-- The answer of a drive, the record that it leaves and the calls that it made agree. -/
structure Agrees (vs : List Passage) (r : TransactionRecord)
    (result : Except ServiceError TransactionView) : Prop where
  completed : ∀ view, result = .ok view ↔ r.status = .completed ∧ view.Shows r
  stranded : (∃ text, result = .error (.compensationFailed text)) ↔
    r.status = .failed ∧ r.compensation = .failed
  conflict : ∀ text, result = .error (.conflict text) → r.GivenUp (.conflict text) ∨ r.LeftOpen vs
  givenUp : ∀ text, r.GivenUp (.conflict text) → result = .error (.conflict text)
  leftOpen : r.LeftOpen vs → ∃ text, result = .error (.conflict text)
  failed : ∀ e, result = .error e → (∀ text, e ≠ .conflict text) →
    r.status = .failed ∧ r.errorMessage = some e.message
  begun : r.status ≠ .created

theorem head?_append {text rest : String} {c : Char} (h : text.toList.head? = some c) :
    (text ++ rest).toList.head? = some c := by
  simp [String.toList_append, List.head?_append, h]

/-- How the ledger's errors begin, as the service words them. -/
theorem LedgerError.toService_head? (e : LedgerError) :
    e.toService.message.toList.head? = some 'A' ∨ e.toService.message.toList.head? = some 'I' := by
  have haccount : "Account ".toList.head? = some 'A' := by decide
  cases e with
  | accountNotFound => exact .inl (head?_append (head?_append haccount))
  | accountInactive => exact .inl (head?_append (head?_append haccount))
  | lockConflict => exact .inl (head?_append (head?_append haccount))
  | invalidAmount => exact .inl (by decide)
  | insufficientFunds => exact .inr (head?_append (by decide))
  | unavailable => exact .inr (head?_append (by decide))

theorem ServiceError.conflict_of_isRetryable {e : ServiceError} (h : e.isRetryable = true) :
    ∃ text, e = .conflict text := by
  cases e with
  | conflict text => exact ⟨text, rfl⟩
  | _ => cases h

inductive StrategyFailure.Arises : StrategyFailure → Prop
  | refused (e : LedgerError) : Arises (.ofLedger e)
  | refunded {e : LedgerError} (final : e.isRetryable = false) : Arises ⟨e.toService, .succeeded⟩
  | stranded (text : String) : Arises ⟨.compensationFailed text, .failed⟩

namespace StrategyFailure.Arises

variable {f : StrategyFailure}

theorem stranded_iff (h : f.Arises) :
    (∃ text, f.error = .compensationFailed text) ↔ f.compensation = .failed := by
  have hn : ∀ (e : LedgerError) text, e.toService ≠ .compensationFailed text := by
    intro e text
    cases e <;> simp [LedgerError.toService]
  cases h with
  | refused e => simp [ofLedger, plain, hn]
  | refunded => simp [hn]
  | stranded text => simp

/-- No failure reads like the text of a record that was given up. -/
theorem message_ne (h : f.Arises) (text : String) :
    f.error.message ≠ "Retry limit exceeded: " ++ text := by
  intro he
  have hlimit : f.error.message.toList.head? = some 'R' := by
    rw [he]
    exact head?_append (by decide)
  cases h with
  | refused e =>
    have hhead := e.toService_head?
    simp [show e.toService.message.toList.head? = some 'R' from hlimit] at hhead
  | @refunded e =>
    have hhead := e.toService_head?
    simp [show e.toService.message.toList.head? = some 'R' from hlimit] at hhead
  | stranded text =>
    have hhead : (ServiceError.compensationFailed text).message.toList.head? = some 'C' :=
      head?_append (by decide)
    simp [hhead] at hlimit

end StrategyFailure.Arises

theorem TransactionRecord.Executes.arises {tx : TransactionRecord} {t : TransactionTable}
    {vs : List Passage} {f : StrategyFailure} {step : TransactionStep}
    (h : tx.Executes t vs (.error f) step) : f.Arises := by
  have hcredits : ∀ {source target t vs}, tx.Credits source target t vs (.error f) step → f.Arises := by
    intro source target t vs h
    cases h with
    | contended | postponed => exact .refused _
    | refunded credit => exact .refunded credit
    | stranded => exact .stranded _
  cases h with
  | debited _ _ _ rest | resumed _ _ _ rest => exact hcredits rest
  | undebited | refused => exact .refused _

/-- A record whose attempts are used up is closed with its conflict, or with the refund's error. -/
theorem Service.exhaustion_reads {tx : TransactionRecord} {text message : String} {c : Compensation}
    {e : ServiceError} (h : exhaustion tx (.conflict text) c = (message, e)) :
    (c.status ≠ .failed ∧ message = "Retry limit exceeded: " ++ text ∧ e = .conflict text) ∨
      (c.status = .failed ∧ message = e.message ∧ ∃ other, e = .compensationFailed other) := by
  cases c with
  | notNeeded | refunded =>
    obtain ⟨rfl, rfl⟩ := Prod.mk.inj h
    exact .inl ⟨by simp [Compensation.status], rfl, rfl⟩
  | failed =>
    obtain ⟨rfl, rfl⟩ := Prod.mk.inj h
    exact .inr ⟨rfl, rfl, _, rfl⟩

/-- A record that was closed as failed. -/
theorem Agrees.of_failed {vs : List Passage} {r : TransactionRecord} {e : ServiceError}
    {message : String} {c : CompensationStatus} (hs : r.status = .failed)
    (hm : r.errorMessage = some message) (hc : r.compensation = c)
    (hstranded : (∃ text, e = .compensationFailed text) ↔ c = .failed)
    (hconflict : ∀ text, e = .conflict text ↔
      message = "Retry limit exceeded: " ++ text ∧ c ≠ .failed)
    (hother : (∀ text, e ≠ .conflict text) → message = e.message) : Agrees vs r (.error e) where
  completed := by simp [hs]
  stranded := by simpa [hs, hc] using hstranded
  conflict := by
    intro text he
    obtain ⟨hmessage, hcomp⟩ := (hconflict text).mp (Except.error.inj he)
    refine .inl ⟨hs, hmessage ▸ hm, ?_⟩
    rw [hc]
    cases c with
    | none => exact .inl rfl
    | succeeded => exact .inr rfl
    | failed => exact absurd rfl hcomp
  givenUp := by
    intro text hg
    rw [(hconflict text).mpr ⟨?_, ?_⟩]
    · exact Option.some.inj (hm.symm.trans hg.message)
    · rw [← hc]
      rcases hg.compensation with hc | hc <;> simp [hc]
  leftOpen := by
    intro ho
    rw [ho.status] at hs
    cases hs
  failed := by
    intro e' he hn
    cases he
    exact ⟨hs, hother hn ▸ hm⟩
  begun := by simp [hs]

namespace Round

variable {s : Service} {x : Round} {t : TransactionTable} {r r₁ r' : TransactionRecord}
  {vs ending : List Passage} {result : Except ServiceError TransactionView}

theorem Takes.status (h : x.Takes s t r r') : r'.status = .processing := by
  obtain ⟨step, now, rfl⟩ := h.leaves
  rfl

theorem Takes.arises {f : StrategyFailure} (h : x.Takes s t r r') (hf : x.result = .error f) :
    f.Arises := by
  obtain ⟨step, now, hx, -⟩ := h.executes
  rw [hf] at hx
  exact hx.arises

/-- The endings, one by one. -/
theorem Ends.agrees (h : x.Ends r₁ ending result r') (ht : x.Takes s t r r₁) (hp : r₁.Pending) :
    Agrees (vs ++ ending) r' result := by
  cases h with
  | completed _ closed =>
    subst closed
    exact {
      completed := fun view => by
        simp [TransactionView.shows_iff, Write.apply, Finalization.completed, eq_comm]
      stranded := by simp [Write.apply, Finalization.completed]
      conflict := nofun
      givenUp := fun _ hg => by cases hg.status
      leftOpen := fun ho => by cases ho.status
      failed := nofun
      begun := by simp [Write.apply, Finalization.completed] }
  | failed failure final built =>
    subst built
    have hf := ht.arises failure
    refine .of_failed rfl rfl rfl hf.stranded_iff (fun text => ⟨?_, ?_⟩) fun _ => rfl
    · intro he
      rw [StrategyFailure.isRetryable, he] at final
      cases final
    · intro hm
      exact absurd hm.1 (hf.message_ne text)
  | @exhausted _ _ c _ _ _ _ failure conflict rest told built =>
    subst built
    obtain ⟨text, htext⟩ := ServiceError.conflict_of_isRetryable conflict
    rw [htext] at told
    obtain ⟨hc, rfl, rfl⟩ | ⟨hc, rfl, other, rfl⟩ := Service.exhaustion_reads told
    · refine .of_failed (c := c.status) rfl rfl rfl ?_ ?_ fun hn => absurd rfl (hn text)
      · simpa using hc
      · intro other
        simpa using fun _ => hc
    · refine .of_failed (c := c.status) rfl rfl rfl ?_ ?_ fun _ => rfl
      · simpa using hc
      · simpa using fun _ _ => hc
  | postponed failure conflict rest =>
    obtain ⟨text, htext⟩ := ServiceError.conflict_of_isRetryable conflict
    rw [htext]
    cases rest with
    | @postponed source e step refund =>
      have hopen : r₁.LeftOpen (vs ++ [⟨x.left, .store (.get r₁.id), .ok (some r₁)⟩,
          Leg.refund.asked r₁ source x.left (.error e)]) := by
        refine ⟨ht.status, step, hp.uncompensated, Leg.refund.asked r₁ source x.left (.error e), ?_,
          refund⟩
        simp [Leg.asked, Leg.direction, Leg.phase, Call.refunds]
      exact {
        completed := by simp [ht.status]
        stranded := by simp [ht.status]
        conflict := fun _ _ => .inr hopen
        givenUp := by
          intro _ hg
          have hfailed := hg.status
          rw [ht.status] at hfailed
          cases hfailed
        leftOpen := fun _ => ⟨text, rfl⟩
        failed := by
          intro e he hn
          cases he
          exact absurd rfl (hn text)
        begun := by simp [ht.status] }

end Round

theorem Service.Attempts.agrees {s : Service} {left number : Nat} {t : TransactionTable}
    {r r' : TransactionRecord} {rounds : List Round} {ending : List Passage}
    {result : Except ServiceError TransactionView} (h : s.Attempts left t r rounds ending result r')
    (hp : r.Pending) (before : List Passage) :
    Agrees (before ++ s.script number rounds ending) r' result := by
  induction h generalizing number before with
  | last round _ ends =>
    rw [script, ← List.append_assoc]
    exact ends.agrees round (round.pending hp)
  | @again _ _ _ _ _ x _ _ _ round _ later ih =>
    have hlater := @ih (number + 1) (round.pending hp)
      (before ++ x.visits ++ [⟨x.left, .pause (s.retry.backoff number), ()⟩])
    rw [later.script_again]
    simpa using hlater

/-- Whatever the ledger answers, the answer of a drive says of its record what the record says. -/
theorem Service.drive_answers {s : Service} {t t' : TransactionTable} {r : TransactionRecord}
    {vs : List Passage} {outcome : Flow.Outcome (Except ServiceError TransactionView)}
    (hr : t.row? r.id = some r) (hp : r.Pending)
    (h : (s.drive r.id).run.Goes TransactionTable.serves t vs outcome t') :
    ∃ result r', outcome = .value result ∧ t'.row? r.id = some r' ∧ Agrees vs r' result := by
  obtain ⟨result, rfl, rounds, ending, r', ha, rfl, hr'⟩ := driveFrom_returns hr hp _ _ _ h
  exact ⟨result, r', rfl, hr', ha.agrees hp []⟩

/-- The target stays locked: the answer is a conflict, and the record says that the source has its money
back. -/
theorem Service.drive_answers_lockedTarget : ∃ vs r',
    Agrees vs r' (.error (.conflict "Account 2 is locked by another operation")) ∧
      r'.status = .failed ∧ r'.compensation = .succeeded := by
  obtain ⟨⟨vs, outcome, t'⟩, hway, hend⟩ := Option.map_eq_some_iff.mp (show
    ((plainService.drive 1).run.way (TransactionTable.serving 7 lockedLedger)
      ⟨[requestedTransfer], [("a", 1)]⟩).map
      (fun w => (w.2.1, w.2.2.rows.map fun r => (r.status, r.compensation))) =
      some (.value (.error (.conflict "Account 2 is locked by another operation")),
        [(.failed, .succeeded)]) by decide +kernel)
  obtain ⟨rfl, hrows⟩ := Prod.mk.inj hend
  have hgoes := Flow.goes_of_way TransactionTable.serves_of_serving hway
  have hformed : requestedTransfer.payload.WellFormed := by
    simp [requestedTransfer, NewTransaction.WellFormed]
  obtain ⟨result, r', hresult, hr', hagrees⟩ :=
    drive_answers (r := requestedTransfer) rfl ⟨rfl, hformed, rfl⟩ hgoes
  cases hresult
  have hlast : (r'.status, r'.compensation) ∈ t'.rows.map fun r => (r.status, r.compensation) :=
    List.mem_map_of_mem (TransactionTable.mem_of_row? hr').1
  rw [hrows, List.mem_singleton] at hlast
  obtain ⟨hstatus, hcomp⟩ := Prod.mk.inj hlast
  exact ⟨vs, r', hagrees, hstatus, hcomp⟩

end Settlement
