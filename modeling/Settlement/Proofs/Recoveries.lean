import Settlement.Proofs.Lifecycle
import Settlement.Proofs.Ways
import Settlement.Service.Sweep

/-!
What a recovery does to its record, in any surroundings in which the record can be worked on, and a
sweep as the recoveries that it consists of.
-/

namespace Settlement
namespace Service

open Program Fallible Reports

variable {σ : Type} {asking : Asking Call.Answer σ} {id : TransactionId}
  {working contended : σ → Prop}

/-- A record can be worked on: whatever the ledger and the store answer about its legs and its steps,
it goes on, and a conflict among the answers is known of. -/
structure Workable (asking : Asking Call.Answer σ) (id : TransactionId)
    (working contended : σ → Prop) : Prop where
  leg : ∀ {s} direction account amount phase, working s →
    asking.ask (.ledger (.mutate direction account amount ⟨id, phase⟩))
      (fun (a : Except LedgerError MutationOutcome) s =>
        working s ∧ ∀ e, a = .error e → e.isRetryable = true → contended s) s
  advance : ∀ {s} step, working s →
    asking.ask (.store (.advanceStep id step))
      (fun (a : Except ServiceError Bool) s =>
        working s ∧ ∀ e, a = .error e → e.isRetryable = true → contended s) s

section

variable {s : Service} {tx : TransactionRecord} {source target : AccountId} {x : σ}

abbrev Fails (working contended : σ → Prop) (f : StrategyFailure) (x : σ) : Prop :=
  working x ∧ (f.isRetryable = true → contended x)

theorem Workable.mutate (h : Workable asking id working contended) {direction : Direction}
    {account : AccountId} {amount : Decimal} {phase : Phase} (hx : working x) :
    Reports asking (Program.mutate direction account amount ⟨id, phase⟩) (fun _ => working)
      (fun e x => working x ∧ (e.isRetryable = true → contended x)) (fun _ => False) x := by
  refine asking.mono (fun a x hx => ?_) (h.leg direction account amount phase hx)
  cases a with
  | ok => exact hx.1
  | error e => exact ⟨hx.1, hx.2 e rfl⟩

theorem Workable.advanceStep (h : Workable asking id working contended) {step : TransactionStep}
    (hx : working x) :
    Reports asking (Program.advanceStep id step) (fun _ => working)
      (fun e x => working x ∧ (e.isRetryable = true → contended x)) (fun _ => False) x := by
  refine asking.mono (fun a x hx => ?_) (h.advance step hx)
  cases a with
  | ok => exact hx.1
  | error e => exact ⟨hx.1, hx.2 e rfl⟩

/-- A leg, asked for by a program that goes on with its ledger's error. -/
theorem Workable.leg_ofLedger (h : Workable asking id working contended) {direction : Direction}
    {account : AccountId} {amount : Decimal} {phase : Phase} (hx : working x) :
    Reports asking (mapError .ofLedger (Program.mutate direction account amount ⟨id, phase⟩))
      (fun _ => working) (Fails working contended) (fun _ => False) x := by
  rw [of_mapError]
  refine (h.mutate hx).mono (fun _ _ h => h) (fun e x he => ⟨he.1, fun hr => he.2 ?_⟩) fun _ h => h
  rwa [← LedgerError.toService_isRetryable]

theorem Workable.step_plain (h : Workable asking id working contended) {step : TransactionStep}
    (hx : working x) :
    Reports asking (mapError .plain (Program.advanceStep id step)) (fun _ => working)
      (Fails working contended) (fun _ => False) x := by
  rw [of_mapError]
  exact h.advanceStep hx

abbrev Works (asking : Asking Call.Answer σ) (working contended : σ → Prop)
    (p : Program StrategyFailure Unit) (x : σ) : Prop :=
  Reports asking p (fun _ => working) (Fails working contended) (fun _ => False) x

theorem refund_works (h : Workable asking id working contended) (hid : tx.id = id) (hx : working x) :
    Reports asking (refund tx source) (fun _ => working)
      (fun e x => working x ∧ (e.isRetryable = true → contended x)) (fun _ => False) x := by
  unfold refund
  rw [of_bind, of_attempt, hid]
  exact (h.mutate hx).mono (fun _ _ h => h) (fun _ _ h => h) fun _ h => h

theorem refundAfter_works {e : LedgerError} (h : Workable asking id working contended)
    (hid : tx.id = id) (he : e.isRetryable = false) (hx : working x) :
    Works asking working contended (refundAfter tx source target e) x := by
  unfold Works refundAfter
  rw [of_bind, of_attempt]
  refine (refund_works h hid hx).mono (fun _ x hx => ?_) (fun r x hr => ?_) fun _ h => h
  · refine ⟨hx, fun hf => ?_⟩
    rw [StrategyFailure.isRetryable, LedgerError.toService_isRetryable, he] at hf
    contradiction
  · dsimp only
    split
    · exact ⟨hr.1, fun _ => hr.2 ‹_›⟩
    · exact ⟨hr.1, fun hf => by cases hf⟩

theorem creditTarget_works (h : Workable asking id working contended) (hid : tx.id = id)
    (hx : working x) : Works asking working contended (creditTarget s tx source target) x := by
  unfold Works creditTarget
  subst hid
  rw [of_bind, of_attempt]
  refine (h.mutate hx).mono (fun _ x hx => ?_) (fun e x he => ?_) fun _ h => h
  · rw [of_bind]
    exact h.step_plain hx
  · dsimp only
    split
    next hr => exact ⟨he.1, fun _ => he.2 hr⟩
    next hr => exact refundAfter_works h rfl (Bool.eq_false_iff.mpr hr) he.1

theorem debitSource_works (h : Workable asking id working contended) (hid : tx.id = id)
    (hx : working x) : Works asking working contended (debitSource s tx source) x := by
  unfold Works debitSource
  rw [of_bind, hid]
  refine (h.leg_ofLedger hx).mono (fun _ x hx => ?_) (fun _ _ h => h) fun _ h => h
  rw [of_bind]
  exact h.step_plain hx

/-- An execution works on its record, from wherever the record is. -/
theorem execute_works {type : OperationType} (h : Workable asking id working contended)
    (hid : tx.id = id) (hx : working x) :
    Works asking working contended (execute s type tx) x := by
  have plain : ∀ e : ServiceError, e.isRetryable = false → Fails working contended (.plain e) x := by
    intro e he
    refine ⟨hx, fun hf => ?_⟩
    rw [StrategyFailure.isRetryable, StrategyFailure.plain, he] at hf
    contradiction
  have hsource : ∀ {p : AccountId → Program StrategyFailure Unit},
      (∀ a, Works asking working contended (p a) x) →
      Works asking working contended (known ((sourceOf tx).mapError .plain) >>= p) x := by
    intro p hp
    rw [Works, of_bind, of_known, sourceOf]
    split
    · exact hp _
    · exact plain _ rfl
  have htarget : ∀ {p : AccountId → Program StrategyFailure Unit},
      (∀ a, Works asking working contended (p a) x) →
      Works asking working contended (known ((targetOf tx).mapError .plain) >>= p) x := by
    intro p hp
    rw [Works, of_bind, of_known, targetOf]
    split
    · exact hp _
    · exact plain _ rfl
  cases type with
  | transfer =>
    refine hsource fun a => htarget fun b => ?_
    split
    · rw [Works, of_bind]
      refine (debitSource_works h hid hx).mono (fun _ x hx => ?_) (fun _ _ h => h) fun _ h => h
      exact creditTarget_works h hid hx
    · exact creditTarget_works h hid hx
    · exact hx
  | deposit =>
    refine htarget fun b => ?_
    rw [Works, of_bind, hid]
    exact h.leg_ofLedger hx
  | withdraw =>
    refine hsource fun a => ?_
    rw [Works, of_bind, hid]
    exact h.leg_ofLedger hx

end

structure Recoverable (asking : Asking Call.Answer σ) (id : TransactionId)
    (working contended ended stopped : σ → Prop) : Prop
    extends Workable asking id working contended where
  found : ∀ {s}, working s → asking.ask (.store (.get id))
    (fun (a : Except ServiceError (Option TransactionRecord)) s =>
      (∀ tx, a = .ok (some tx) → tx.id = id ∧ working s) ∧
        ((∀ tx, a ≠ .ok (some tx)) → stopped s)) s
  ends : ∀ {s} fin, fin.Built → working s → asking.ask (.store (.finalize id fin))
    (fun (a : Except ServiceError Bool) s =>
      (∀ done, a = .ok done → ended s) ∧ ∀ e, a = .error e → stopped s) s

section

variable {s : Service} {x : σ} {ended stopped : σ → Prop}

theorem Recoverable.reports_close (h : Recoverable asking id working contended ended stopped)
    {fin : Finalization} (hf : fin.Built) (hx : working x) :
    Reports asking (close id fin) (fun _ => ended) (fun _ => stopped) (fun _ => False) x := by
  unfold Service.close
  rw [of_bind]
  refine asking.mono (fun a x ha => ?_) (h.ends fin hf hx)
  cases a with
  | ok done => cases done <;> exact ha.1 _ rfl
  | error e => exact ha.2 e rfl

theorem Recoverable.reports_load (h : Recoverable asking id working contended ended stopped)
    (hx : working x) :
    Reports asking (load id) (fun tx x => tx.id = id ∧ working x) (fun _ => stopped)
      (fun _ => False) x := by
  unfold Service.load
  rw [of_bind]
  refine asking.mono (fun a x ha => ?_) (h.found hx)
  rcases a with e | ⟨⟩ | tx
  · exact ha.2 (by simp)
  · exact ha.2 (by simp)
  · exact ha.1 tx rfl

structure Accounts (working contended ended skipped : σ → Prop) (outcome : RecoveryOutcome) (x : σ) :
    Prop where
  closed : outcome = .completed ∨ outcome = .failed → ended x
  deferred : outcome = .deferred → working x ∧ contended x
  skipped : outcome = .skipped → skipped x

/-- A recovery reports what it did, and it never breaks off. -/
theorem recover_reports (skipped : σ → Prop)
    (h : Recoverable asking id working contended ended stopped)
    (hm : asking.ask (.store (.markProcessing id)) (fun (a : Except ServiceError Bool) x =>
      (a = .ok true → working x) ∧ (a = .ok false → skipped x) ∧ ∀ e, a = .error e → stopped x) x) :
    Reports asking (recover s id) (Accounts working contended ended skipped) (fun _ => stopped)
      (fun _ => False) x := by
  unfold recover
  rw [of_bind]
  refine asking.mono (fun a x ha => ?_) hm
  rcases a with e | _ | _
  · exact ha.2.2 e rfl
  · exact ⟨by simp, by simp, fun _ => ha.2.1 rfl⟩
  · show Reports asking (load id >>= _) _ _ _ x
    rw [of_bind]
    refine (h.reports_load (ha.1 rfl)).mono (fun tx x ⟨hid, hx⟩ => ?_) (fun _ _ h => h) fun _ h => h
    rw [of_bind, of_attempt]
    refine (execute_works h.toWorkable hid hx).mono (fun _ x hx => ?_) (fun f x hf => ?_) fun _ h => h
    · rw [of_bind]
      refine (h.reports_close .completed hx).mono (fun _ x hx => ?_) (fun _ _ h => h) fun _ h => h
      exact ⟨fun _ => hx, by simp, by simp⟩
    · dsimp only
      split
      next hr => exact ⟨by simp, fun _ => ⟨hf.1, hf.2 hr⟩, by simp⟩
      next =>
        rw [of_bind]
        refine (h.reports_close (.failed _ _) hf.1).mono (fun _ x hx => ?_) (fun _ _ h => h) fun _ h => h
        exact ⟨fun _ => hx, by simp, by simp⟩

end
end Service

abbrev RecoveryResult := Except ServiceError Service.RecoveryOutcome

namespace SweepReport

def ofResults (results : List RecoveryResult) : SweepReport where
  found := results.length
  completed := results.count (.ok .completed)
  failed := results.count (.ok .failed)
  deferred := results.count (.ok .deferred)
  skipped := results.count (.ok .skipped)
  errors := results.countP fun result => !result.isOk

/-- Every result is counted once. -/
theorem found_ofResults (results : List RecoveryResult) :
    (ofResults results).found = (ofResults results).completed + (ofResults results).failed +
      (ofResults results).deferred + (ofResults results).skipped + (ofResults results).errors := by
  simp only [ofResults]
  induction results with
  | nil => rfl
  | cons result results ih =>
    rcases result with e | outcome
    · simp [Except.isOk, Except.toBool] at ih ⊢
      omega
    · cases outcome <;> simp [Except.isOk, Except.toBool] at ih ⊢ <;> omega

variable {found : Nat} {past : List RecoveryResult}

theorem count_ofResults (outcome : Service.RecoveryOutcome) :
    { ofResults past with found }.count outcome =
      { ofResults (past ++ [.ok outcome]) with found } := by
  cases outcome <;> simp [count, ofResults, Except.isOk, Except.toBool]

theorem error_ofResults (e : ServiceError) :
    { ofResults past with found, errors := (ofResults past).errors + 1 } =
      { ofResults (past ++ [.error e]) with found } := by
  simp [ofResults, Except.isOk, Except.toBool]

end SweepReport

namespace Service

open Program Fallible Reports

def Finds (W : Surroundings Call.Answer σ) : Prop :=
  ∀ {id tx x x'}, W (.store (.get id)) x (.ok (some tx)) x' → tx.id = id

section

variable {W : Surroundings Call.Answer σ} {s : Service} {id : TransactionId} {x x' : σ}
  {vs : List (Visit Call.Answer σ)}

/-- A recovery always comes back to its caller. -/
theorem recover_returns (hw : Finds W) {outcome : Flow.Outcome RecoveryResult}
    (h : (recover s id).run.Goes W x vs outcome x') : ∃ result, outcome = .value result := by
  have hr : Recoverable (Flow.tracing W) id (fun _ => True) (fun _ => True) (fun _ => True)
      fun _ => True := by
    refine { leg := ?_, advance := ?_, found := ?_, ends := ?_ }
    · exact fun _ _ _ _ _ _ _ _ => ⟨trivial, fun _ _ _ => trivial⟩
    · exact fun _ _ _ _ _ => ⟨trivial, fun _ _ _ => trivial⟩
    · intro y _ a y' ha
      exact ⟨fun tx he => ⟨hw (he ▸ ha), trivial⟩, fun _ => trivial⟩
    · exact fun _ _ _ _ _ _ => ⟨fun _ _ => trivial, fun _ _ => trivial⟩
  have hc := h.closes (recover_reports (s := s) (fun _ => True) hr fun _ _ _ =>
    ⟨fun _ => trivial, fun _ => trivial, fun _ _ => trivial⟩)
  cases outcome with
  | value result => exact ⟨result, rfl⟩
  | panic => exact hc.elim

inductive Recovers (W : Surroundings Call.Answer σ) (s : Service) :
    List (TransactionId × RecoveryResult) → σ → List (Visit Call.Answer σ) → σ → Prop
  | nil {x : σ} : Recovers W s [] x [] x
  | cons {id : TransactionId} {result : RecoveryResult}
      {results : List (TransactionId × RecoveryResult)} {x x₁ x' : σ}
      {vs rest : List (Visit Call.Answer σ)}
      (first : (s.recover id).run.Goes W x vs (.value result) x₁)
      (later : Recovers W s results x₁ rest x') :
      Recovers W s ((id, result) :: results) x (vs ++ rest) x'

theorem Recovers.part {results : List (TransactionId × RecoveryResult)}
    (h : Recovers W s results x vs x') : ∀ id ∈ results.map (·.1), ∃ part y result y',
      part <:+: vs ∧ (s.recover id).run.Goes W y part (.value result) y' := by
  induction h with
  | nil => simp
  | @cons id result results x x₁ x' vs rest first _ ih =>
    have hinfix := (List.prefix_append vs rest).isInfix
    refine List.forall_mem_cons.mpr ⟨⟨vs, x, result, x₁, hinfix, first⟩, ?_⟩
    intro other hother
    obtain ⟨part, y, result, y', hpart, hgoes⟩ := ih other hother
    exact ⟨part, y, result, y', hpart.trans (List.suffix_append vs rest).isInfix, hgoes⟩

/-- What the recoveries of some records come to, after the results and the visits of those before. -/
def RecoversAll (W : Surroundings Call.Answer σ) (s : Service) (stuck : List TransactionRecord)
    (found : Nat) (done : List RecoveryResult) (x : σ) (past : List (Visit Call.Answer σ))
    (report : SweepReport) (y : σ × List (Visit Call.Answer σ)) : Prop :=
  ∃ results vs, Recovers W s results x vs y.1 ∧ y.2 = past ++ vs ∧
    results.map (·.1) = stuck.map (·.id) ∧
    report = { SweepReport.ofResults (done ++ results.map (·.2)) with found }

theorem RecoversAll.cons {tx : TransactionRecord} {stuck : List TransactionRecord} {found : Nat}
    {done : List RecoveryResult} {past : List (Visit Call.Answer σ)} {result : RecoveryResult}
    {report : SweepReport} {y : σ × List (Visit Call.Answer σ)}
    (first : (s.recover tx.id).run.Goes W x vs (.value result) x')
    (h : RecoversAll W s stuck found (done ++ [result]) x' (past ++ vs) report y) :
    RecoversAll W s (tx :: stuck) found done x past report y := by
  obtain ⟨results, rest, hrest, hy, hids, hreport⟩ := h
  refine ⟨(tx.id, result) :: results, vs ++ rest, .cons first hrest, ?_, ?_, ?_⟩
  · rw [hy, List.append_assoc]
  · rw [List.map_cons, List.map_cons, hids]
  · rw [hreport, List.append_assoc]
    rfl

/-- Every record is recovered once, whatever became of those before it. -/
theorem recoverAll_reports (hw : Finds W) {stuck : List TransactionRecord} {found : Nat}
    (done : List RecoveryResult) {past : List (Visit Call.Answer σ)} :
    Reports (Flow.tracing W) (recoverAll s stuck { SweepReport.ofResults done with found })
      (RecoversAll W s stuck found done x past) (fun _ _ => False) (fun _ => False) (x, past) := by
  induction stuck generalizing x past done with
  | nil => exact ⟨[], [], .nil, by simp, rfl, by simp⟩
  | cons tx stuck ih =>
    rw [recoverAll, of_bind, of_log, of_bind, of_attempt]
    refine Flow.tells_tracing.mpr fun vs outcome x₁ hx => ?_
    obtain ⟨result, rfl⟩ := recover_returns hw hx
    have hlater : Reports (Flow.tracing W)
        (recoverAll s stuck { SweepReport.ofResults (done ++ [result]) with found })
        (RecoversAll W s (tx :: stuck) found done x past) (fun _ _ => False) (fun _ => False)
        (x₁, past ++ vs) :=
      (ih (done ++ [result])).mono (fun _ _ h => h.cons hx) (fun _ _ h => h) fun _ h => h
    cases result with
    | ok outcome =>
      rw [← SweepReport.count_ofResults] at hlater
      exact hlater
    | error e =>
      rw [← SweepReport.error_ofResults] at hlater
      exact hlater

inductive Sweeps (W : Surroundings Call.Answer σ) (s : Service) (settings : SweepSettings) (x : σ) :
    List (Visit Call.Answer σ) → Flow.Outcome (Except ServiceError SweepReport) → σ → Prop
  /-- The timeout is no duration. -/
  | timeless {e : ServiceError} (long : maxInt64 < settings.processingTimeoutSecs * 1000) :
      Sweeps W s settings x [] (.value (.error e)) x
  /-- The cutoff is before all instants. -/
  | early {now : Instant} {x₁ : σ} {message : String} (read : W .now x now x₁)
      (before : now - settings.processingTimeoutSecs * 1000000 < Instant.first) :
      Sweeps W s settings x [⟨x, .now, now⟩] (.panic message) x₁
  | unselected {now cutoff : Instant} {x₁ x' : σ} {limit : Nat} {e : ServiceError}
      (read : W .now x now x₁) (select : W (.store (.findStuck cutoff limit)) x₁ (.error e) x') :
      Sweeps W s settings x [⟨x, .now, now⟩, ⟨x₁, .store (.findStuck cutoff limit), .error e⟩]
        (.value (.error e)) x'
  | selected {now cutoff : Instant} {x₁ x₂ x' : σ} {stuck : List TransactionRecord}
      {results : List (TransactionId × RecoveryResult)} {vs : List (Visit Call.Answer σ)}
      (back : cutoff = now - settings.processingTimeoutSecs * 1000000)
      (read : W .now x now x₁)
      (select : W (.store (.findStuck cutoff settings.batchSize)) x₁ (.ok stuck) x₂)
      (recovers : Recovers W s results x₂ vs x') (ids : results.map (·.1) = stuck.map (·.id)) :
      Sweeps W s settings x
        (⟨x, .now, now⟩ :: ⟨x₁, .store (.findStuck cutoff settings.batchSize), .ok stuck⟩ :: vs)
        (.value (.ok (.ofResults (results.map (·.2))))) x'

theorem sweep_reports (hw : Finds W) {settings : SweepSettings} :
    Reports (Flow.tracing W) (sweep s settings)
      (fun report y => Sweeps W s settings x y.2 (.value (.ok report)) y.1)
      (fun e y => Sweeps W s settings x y.2 (.value (.error e)) y.1)
      (fun y => ∀ message, Sweeps W s settings x y.2 (.panic message) y.1) (x, []) := by
  unfold sweep sweepSince cutoff
  rw [of_bind]
  dsimp only
  split
  next hlong => exact .timeless hlong
  next =>
    intro now x₁ hread
    show Reports (Flow.tracing W) (if _ then _ else _) _ _ _ _
    split
    next hbefore => exact fun message => .early hread hbefore
    next =>
      intro a x₂ hselect
      rcases a with e | stuck
      · exact .unselected hread hselect
      show Reports (Flow.tracing W) (if stuck = [] then _ else _) _ _ _ _
      split
      next hnil =>
        subst hnil
        exact .selected rfl hread hselect .nil rfl
      next =>
        rw [of_bind, of_log, of_bind]
        refine (recoverAll_reports hw []).mono ?_ (fun _ _ h => h.elim) fun _ h => h.elim
        rintro report ⟨x', past⟩ ⟨results, vs, hrecovers, hvs, hids, hreport⟩
        have hlength : stuck.length = (results.map (·.2)).length := by
          simpa using (congrArg List.length hids).symm
        rw [hlength] at hreport
        subst hvs hreport
        exact .selected rfl hread hselect hrecovers hids

theorem sweeps_of_goes (hw : Finds W) {settings : SweepSettings}
    {outcome : Flow.Outcome (Except ServiceError SweepReport)}
    (h : (sweep s settings).run.Goes W x vs outcome x') : Sweeps W s settings x vs outcome x' := by
  have hc := h.closes (sweep_reports hw)
  rcases outcome with (e | report) | message
  · exact hc
  · exact hc
  · exact hc message

/-- A sweep starts with a reading of the clock. -/
theorem Sweeps.reads {settings : SweepSettings}
    {outcome : Flow.Outcome (Except ServiceError SweepReport)} (h : Sweeps W s settings x vs outcome x')
    (hlong : settings.processingTimeoutSecs * 1000 ≤ maxInt64) :
    ∃ now x₁, W .now x now x₁ ∧ vs.head? = some ⟨x, .now, now⟩ := by
  cases h with
  | timeless long => exact absurd hlong (Int.not_le.mpr long)
  | early read => exact ⟨_, _, read, rfl⟩
  | unselected read => exact ⟨_, _, read, rfl⟩
  | selected _ read => exact ⟨_, _, read, rfl⟩

/-- A sweep that reports has selected. -/
theorem Sweeps.selection {settings : SweepSettings} {report : SweepReport}
    (h : Sweeps W s settings x vs (.value (.ok report)) x') :
    ∃ x₁ cutoff limit stuck, ⟨x₁, .store (.findStuck cutoff limit), .ok stuck⟩ ∈ vs := by
  cases h with
  | selected => exact ⟨_, _, _, _, List.mem_cons_of_mem _ List.mem_cons_self⟩

end
end Service
end Settlement
