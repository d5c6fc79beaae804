import Settlement.Proofs.Conduct
import Settlement.Service.Drive

/-!
Drivers follow the stages: the strategies, the attempts of a drive and the single attempt of a
recovery, whatever the ledger and the store answer.
-/

namespace Settlement

open Service Program

theorem Finalization.completed_proper : Finalization.completed.Proper := fun _ => rfl

theorem Finalization.failed_proper (message : String) (compensation : CompensationStatus) :
    (Finalization.failed message compensation).Proper := by
  rintro ⟨⟩

theorem Stage.failed_retryable {tx : TransactionRecord} {f : StrategyFailure}
    (h : f.isRetryable = true) : Stage.failed tx f = .idle (some tx) := by
  simp [failed, h]

theorem Stage.failed_final {tx : TransactionRecord} {f : StrategyFailure}
    (h : f.isRetryable = false) : Stage.failed tx f = .settling tx.id .failed f.compensation := by
  simp [failed, h]

/-- A failure that the ledger caused leaves its driver where the ledger's error does. -/
@[simp] theorem Stage.failed_ofLedger (tx : TransactionRecord) (e : LedgerError) :
    Stage.failed tx (.ofLedger e) =
      if e.isRetryable then .idle (some tx) else .settling tx.id .failed .none := by
  simp [failed, StrategyFailure.ofLedger, StrategyFailure.plain, StrategyFailure.isRetryable]

section

variable {tx : TransactionRecord} {source target : AccountId} {s : Service}

theorem refund_conducts {ok : Unit → Stage → Prop} {err : LedgerError → Stage → Prop}
    (hs : tx.source = some source) (ho : ok () (.settling tx.id .failed .succeeded))
    (hc : ∀ e, e.isRetryable = true → err e (.idle (some tx)))
    (hr : ∀ e, e.isRetryable = false → err e (.settling tx.id .failed .failed)) :
    Conducts (refund tx source) ok err (.moving .refund tx) := by
  unfold refund
  rw [Conducts.of_bind, Conducts.of_attempt]
  refine Conducts.of_leg .refund hs ?_ ?_ ?_
  · intro _
    simpa [Stage.moved] using ho
  · intro e he
    simpa using hc e he
  · intro e he
    simpa [Stage.refused] using hr e he

variable {ok : Unit → Stage → Prop} {err : StrategyFailure → Stage → Prop}

theorem refundAfter_conducts {e : LedgerError} (hs : tx.source = some source)
    (hn : e.isRetryable = false) (he : ∀ f, err f (.failed tx f)) :
    Conducts (refundAfter tx source target e) ok err (.moving .refund tx) := by
  unfold refundAfter
  rw [Conducts.of_bind, Conducts.of_attempt]
  refine refund_conducts hs ?_ ?_ ?_
  · have hf := he ⟨e.toService, .succeeded⟩
    simpa [Stage.failed, StrategyFailure.isRetryable, hn] using hf
  · intro r hr
    have hf := he (.ofLedger r)
    simpa [hr] using hf
  · intro r hr
    have hf := fun text => he ⟨.compensationFailed text, .failed⟩
    simp only [Stage.failed, StrategyFailure.isRetryable, ServiceError.isRetryable,
      ServiceError.kind] at hf
    simpa [hr] using hf _

theorem creditTarget_conducts (hs : tx.source = some source) (ht : tx.target = some target)
    (ho : ok () (.settling tx.id .completed .none)) (he : ∀ f, err f (.failed tx f)) :
    Conducts (creditTarget s tx source target) ok err (.moving .credit tx) := by
  unfold creditTarget
  rw [Conducts.of_bind, Conducts.of_attempt]
  refine Conducts.of_leg .credit ht ?_ ?_ ?_
  · intro _
    simp only [Conducts.of_bind, Conducts.of_mapError]
    exact Conducts.of_advanceStep .credit rfl (fun _ => ho) (fun e => he (.plain e))
  · intro e hc
    have hf := he (.ofLedger e)
    simpa [hc] using hf
  · intro e hr
    simp only [hr]
    exact refundAfter_conducts hs hr he

theorem debitSource_conducts (hs : tx.source = some source) (ho : ok () (.moving .credit tx))
    (he : ∀ f, err f (.failed tx f)) :
    Conducts (debitSource s tx source) ok err (.moving .debit tx) := by
  unfold debitSource
  simp only [Conducts.of_bind, Conducts.of_mapError]
  refine Conducts.of_leg .debit hs ?_ ?_ ?_
  · intro _
    exact Conducts.of_advanceStep .debit rfl (fun _ => ho) (fun e => he (.plain e))
  · intro e hc
    have hf := he (.ofLedger e)
    simpa [hc] using hf
  · intro e hr
    have hf := he (.ofLedger e)
    simpa [hr, Stage.refused] using hf

theorem executeTransfer_conducts (hw : tx.payload.WellFormed) (ht : tx.type = .transfer)
    (ho : ok () (.settling tx.id .completed .none)) (he : ∀ f, err f (.failed tx f)) :
    Conducts (executeTransfer s tx) ok err (.begins tx) := by
  obtain ⟨a, b, hs, hb, _⟩ := hw.transfer ht
  unfold executeTransfer
  simp only [sourceOf, targetOf, hs, hb, Except.mapError, Conducts.of_bind, Conducts.of_known, Ends]
  cases hp : tx.step with
  | none =>
    simp only [Stage.begins, ht, hp, Conducts.of_bind]
    exact debitSource_conducts hs (creditTarget_conducts hs hb ho he) he
  | debitDone =>
    simp only [Stage.begins, ht, hp]
    exact creditTarget_conducts hs hb ho he
  | creditDone =>
    simp only [Stage.begins, ht, hp]
    exact ho

/-- A transaction of one leg ends with it. -/
theorem single_conducts (leg : Leg) {account : AccountId} (hl : leg.account tx.payload = some account)
    (hm : Stage.moved leg tx = .settling tx.id .completed .none)
    (hf : Stage.refused leg tx = .settling tx.id .failed .none)
    (ho : ok () (.settling tx.id .completed .none)) (he : ∀ f, err f (.failed tx f)) :
    Conducts
      (Fallible.mapError StrategyFailure.ofLedger
        (mutate leg.direction account (leg.amount tx.payload) ⟨tx.id, leg.phase⟩))
      (fun _ => ok ()) err (.moving leg tx) := by
  rw [Conducts.of_mapError]
  refine Conducts.of_leg leg hl ?_ ?_ ?_
  · intro _
    rw [hm]
    exact ho
  · intro e hc
    have h := he (.ofLedger e)
    simpa [hc] using h
  · intro e hr
    have h := he (.ofLedger e)
    simpa [hr, hf] using h

theorem execute_conducts (hw : tx.payload.WellFormed)
    (ho : ok () (.settling tx.id .completed .none)) (he : ∀ f, err f (.failed tx f)) :
    Conducts (execute s tx.type tx) ok err (.begins tx) := by
  unfold execute
  cases ht : tx.type with
  | transfer => exact executeTransfer_conducts hw ht ho he
  | deposit =>
    obtain ⟨b, _, hb⟩ := hw.deposit ht
    simp only [executeDeposit, targetOf, hb, Except.mapError, Conducts.of_bind, Conducts.of_known,
      Ends, Stage.begins, ht]
    exact single_conducts .deposit hb rfl rfl ho he
  | withdraw =>
    obtain ⟨a, ha, _⟩ := hw.withdraw ht
    simp only [executeWithdraw, sourceOf, ha, Except.mapError, Conducts.of_bind, Conducts.of_known,
      Ends, Stage.begins, ht]
    exact single_conducts .withdraw ha rfl rfl ho he

end

section

variable {s : Service} {last : Option TransactionRecord} {id : TransactionId}
  {err : ServiceError → Stage → Prop}

theorem viewOf_conducts {ok : TransactionView → Stage → Prop} (ho : ∀ view, ok view (.idle none))
    (he : ∀ e, err e (.idle none)) : Conducts (viewOf id) ok err (.idle last) := by
  unfold viewOf load
  simp only [Conducts.of_map, Conducts.of_bind]
  refine look_follows rfl ?_
  intro a _
  rcases a with e | ⟨⟩ | tx
  · exact he e
  · exact he _
  · exact ho tx.view

theorem load_conducts {ok : TransactionRecord → Stage → Prop}
    (ho : ∀ tx, tx.id = id → tx.payload.WellFormed → ok tx (.begins tx))
    (he : ∀ e, err e (.idle none)) : Conducts (load id) ok err (.taken id) := by
  unfold load
  simp only [Conducts.of_bind]
  intro a ha
  rcases a with e | ⟨⟩ | tx
  · exact ⟨_, .unread (by simp), he e⟩
  · exact ⟨_, .unread (by simp), he _⟩
  · exact ⟨_, .load, ho tx ha.1 ha.2.1⟩

theorem close_conducts {ok : Unit → Stage → Prop} {fin : Finalization} (hf : fin.Proper)
    (ho : ok () (.idle none)) (he : ∀ e, err e (.idle none)) :
    Conducts (close id fin) ok err (.settling id fin.status fin.compensation) := by
  unfold close
  simp only [Conducts.of_bind]
  intro a _
  refine ⟨_, .close hf, ?_⟩
  cases a with
  | ok done => cases done <;> exact ho
  | error e => exact he e

end

section

variable {s : Service} {id : TransactionId} {tx : TransactionRecord}

theorem compensate_conducts {ok : Compensation → Stage → Prop} {err : ServiceError → Stage → Prop}
    {type : OperationType} (ht : type = tx.type) (hw : tx.payload.WellFormed)
    (ho : ∀ c, ok c (.settling tx.id .failed c.status))
    (he : ∀ e : LedgerError, e.isRetryable = true → err e.toService (.idle (some tx))) :
    Conducts (compensate type tx) ok err (.resumes tx) := by
  subst ht
  unfold compensate
  by_cases hr : tx.type = .transfer ∧ tx.step = .debitDone
  · obtain ⟨a, b, hs, _, _⟩ := hw.transfer hr.1
    simp only [Stage.resumes, hr, and_self, if_true, sourceOf, hs]
    rw [if_neg (by simp)]
    simp only [Conducts.of_bind, Conducts.of_known, Ends, Conducts.of_attempt]
    refine refund_conducts hs (ho .refunded) ?_ ?_
    · intro e h
      simpa [h] using he e h
    · intro e h
      simpa [h, Compensation.status] using ho (.failed a e)
  · have hc : tx.type ≠ .transfer ∨ tx.step ≠ .debitDone := by
      by_cases ht : tx.type = .transfer
      · exact .inr fun hd => hr ⟨ht, hd⟩
      · exact .inl ht
    simp only [hc, if_true, Stage.resumes, hr, if_false]
    exact ho .notNeeded

theorem failExhausted_conducts (hid : tx.id = id) (conflict : ServiceError) :
    Conducts (failExhausted s tx.type id conflict) (fun _ st => st.Idle) (fun _ st => st.Idle)
      (.idle (some tx)) := by
  subst hid
  unfold failExhausted load
  simp only [Conducts.of_bind]
  intro a ha
  rcases a with e | ⟨⟩ | now
  · exact ⟨_, .look rfl, none, rfl⟩
  · exact ⟨_, .look rfl, none, rfl⟩
  · obtain ⟨hid, hw, hp⟩ := ha
    have ht : tx.type = now.type := congrArg NewTransaction.type (hp tx rfl rfl).symm
    refine ⟨_, .reload, ?_⟩
    show Conducts (Fallible.attempt (compensate tx.type now)) _ _ _
    rw [Conducts.of_attempt]
    refine compensate_conducts ht hw ?_ ?_
    · intro c
      simp only [Conducts.of_bind]
      rw [← hid]
      refine close_conducts (Finalization.failed_proper _ c.status) ?_ ?_
      · exact ⟨none, rfl⟩
      · exact fun _ => ⟨none, rfl⟩
    · intro e h
      simp only [LedgerError.toService_isRetryable, h, if_true]
      exact ⟨some now, rfl⟩

/-- An attempt follows the stages if what comes after a conflict does. -/
theorem attemptOnce_rests {number : Nat} {again : Option (Unit → Program ServiceError TransactionView)}
    (hn : ∀ next, again = some next → Rests (next ()) fun _ => True) :
    Rests (attemptOnce s id number again) fun _ => True := by
  intro last
  unfold attemptOnce
  rw [Conducts.of_bind]
  refine Conducts.of_markProcessing ?_ ?_ fun _ => ⟨none, rfl⟩
  · simp only [Bool.not_true, Bool.false_eq_true, if_false, Conducts.of_bind, Conducts.of_log,
      Conducts.of_attempt]
    refine load_conducts ?_ fun _ => ⟨none, rfl⟩
    intro tx hid hw
    refine execute_conducts hw ?_ ?_
    · simp only [hid]
      refine close_conducts Finalization.completed_proper ?_ fun _ => ⟨none, rfl⟩
      exact viewOf_conducts (fun _ => ⟨⟨none, rfl⟩, trivial⟩) fun _ => ⟨none, rfl⟩
    · intro f
      cases hf : f.isRetryable with
      | true =>
        rw [Stage.failed_retryable hf]
        simp only [if_true]
        cases ha : again with
        | none =>
          simp only [Conducts.of_bind]
          exact Conducts.mono (failExhausted_conducts hid f.error) (fun _ _ h => h) fun _ _ h => h
        | some next =>
          simp only [Conducts.of_bind]
          exact look_follows rfl fun _ _ => hn next ha none
      | false =>
        rw [Stage.failed_final hf]
        simp only [Bool.false_eq_true, if_false, Conducts.of_bind]
        unfold fail
        rw [hid, Conducts.of_bind]
        refine close_conducts (Finalization.failed_proper _ f.compensation) ?_ fun _ => ⟨none, rfl⟩
        simp only
        split <;> exact ⟨none, rfl⟩
  · simp only [Bool.not_false, if_true, Conducts.of_bind]
    exact viewOf_conducts (fun _ => ⟨⟨none, rfl⟩, trivial⟩) fun _ => ⟨none, rfl⟩

theorem driveFrom_rests (left number : Nat) : Rests (driveFrom s id left number) fun _ => True := by
  induction left generalizing number with
  | zero => exact attemptOnce_rests (by simp)
  | succ left ih =>
    refine attemptOnce_rests fun next hn => ?_
    cases hn
    exact ih (number + 1)

theorem drive_rests : Rests (drive s id) fun _ => True := driveFrom_rests _ 1

theorem recover_rests : Rests (recover s id) fun _ => True := by
  intro last
  unfold recover
  rw [Conducts.of_bind]
  refine Conducts.of_markProcessing ?_ ?_ fun _ => ⟨none, rfl⟩
  · simp only [Bool.not_true, Bool.false_eq_true, if_false, Conducts.of_bind, Conducts.of_attempt]
    refine load_conducts ?_ fun _ => ⟨none, rfl⟩
    intro tx hid hw
    refine execute_conducts hw ?_ ?_
    · simp only [hid]
      exact close_conducts Finalization.completed_proper ⟨⟨none, rfl⟩, trivial⟩ fun _ => ⟨none, rfl⟩
    · intro f
      cases hf : f.isRetryable with
      | true =>
        rw [Stage.failed_retryable hf]
        simp only [if_true]
        exact ⟨⟨some tx, rfl⟩, trivial⟩
      | false =>
        rw [Stage.failed_final hf]
        simp only [Bool.false_eq_true, if_false, Conducts.of_bind, hid]
        exact close_conducts (Finalization.failed_proper _ f.compensation) ⟨⟨none, rfl⟩, trivial⟩
          fun _ => ⟨none, rfl⟩
  · simp only [Bool.not_false, if_true]
    exact ⟨⟨none, rfl⟩, trivial⟩

end
end Settlement
