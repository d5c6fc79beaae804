import Settlement.Proofs.Rounds

/-!
Bounded retries. A drive executes the strategy until it meets no conflict or the attempts are used up.
It sleeps between two executions, and asks for no debit once it was granted one.
-/

namespace Settlement

namespace Call

def debits : Call → Bool
  | .ledger (.mutate .debit _ _ ⟨_, .forward⟩) => true
  | _ => false

def refunds : Call → Bool
  | .ledger (.mutate .credit _ _ ⟨_, .compensation⟩) => true
  | _ => false

/-- The calls that end a record: it is refunded, closed and read. -/
def Closes (id : TransactionId) : Call → Prop
  | .store (.get other) | .store (.finalize other _) => other = id
  | .ledger (.mutate .credit _ _ operation) => operation = .compensation id
  | _ => False

def sleep? : Call → Option Nat
  | .pause milliseconds => some milliseconds
  | _ => none

@[simp] theorem sleep?_pause (milliseconds : Nat) :
    (pause milliseconds).sleep? = some milliseconds := rfl

end Call

def Passage.debited : Passage → Bool
  | ⟨_, .ledger (.mutate .debit _ _ ⟨_, .forward⟩), .ok _⟩ => true
  | _ => false

def TransactionRecord.Debited (r : TransactionRecord) : Prop := r.type = .transfer ∧ r.step ≠ .none

namespace TransactionRecord

variable {tx : TransactionRecord} {source target : AccountId} {t : TransactionTable}
  {vs : List Passage} {result : Except StrategyFailure Unit} {step : TransactionStep}

theorem Credits.calls (h : tx.Credits source target t vs result step) :
    ∀ v ∈ vs, v.question.debits = false ∧ v.question.sleep? = none := by
  cases h <;> simp [Leg.asked, Leg.direction, advanced, Call.debits, Call.sleep?]

theorem Credits.refunds (h : tx.Credits source target t vs result step) :
    (vs.countP fun v => v.question.refunds) ≤ 1 ∧
      ∀ v ∈ vs, v.question.refunds = true → v.state = t := by
  cases h <;> simp [Leg.asked, Leg.direction, Leg.phase, advanced, Call.refunds]

theorem Credits.step_ne (h : tx.Credits source target t vs result step) : step ≠ .none := by
  cases h <;> simp

theorem Executes.takes (h : tx.Executes t vs result step) (id : TransactionId) :
    ∀ v ∈ vs, v.question ≠ .store (.markProcessing id) := by
  have hcredits : ∀ {source target t vs}, tx.Credits source target t vs result step →
      ∀ v ∈ vs, v.question ≠ .store (.markProcessing id) := by
    intro source target t vs h
    cases h <;> simp [Leg.asked, advanced]
  cases h with
  | debited _ _ _ rest => simpa [Leg.asked, advanced] using hcredits rest
  | resumed _ _ _ rest => exact hcredits rest
  | undebited | credited | moved | refused => simp [Leg.asked]

theorem Executes.sleep? (h : tx.Executes t vs result step) : ∀ v ∈ vs, v.question.sleep? = none := by
  cases h with
  | debited _ _ _ rest =>
    simpa [Leg.asked, advanced, Call.sleep?] using fun v hv => (rest.calls v hv).2
  | resumed _ _ _ rest => exact fun v hv => (rest.calls v hv).2
  | undebited | credited | moved | refused => simp [Leg.asked, Call.sleep?]

/-- If an execution asks for a debit, then first of all. -/
theorem Executes.debits (h : tx.Executes t vs result step) :
    (∀ v ∈ vs.tail, v.question.debits = false) ∧
      (tx.Debited → ∀ v ∈ vs, v.question.debits = false) := by
  cases h with
  | debited type none _ rest =>
    refine ⟨?_, fun hd => absurd none hd.2⟩
    simpa [advanced, Call.debits] using fun v hv => (rest.calls v hv).1
  | resumed _ _ _ rest =>
    exact ⟨fun v hv => (rest.calls v (List.mem_of_mem_tail hv)).1, fun _ v hv => (rest.calls v hv).1⟩
  | undebited type none => exact ⟨by simp, fun hd => absurd none hd.2⟩
  | credited => simp
  | moved _ type | refused _ type => exact ⟨by simp, fun hd => absurd hd.1 type⟩

/-- A transfer stays debited. -/
theorem Executes.keeps_debited (h : tx.Executes t vs result step) (hd : tx.step ≠ .none) :
    step ≠ .none := by
  cases h with
  | debited _ _ _ rest | resumed _ _ _ rest => exact rest.step_ne
  | undebited | credited | moved | refused => exact hd

/-- A debit that was granted is stored, unless the execution succeeds anyway. -/
theorem Executes.granted (h : tx.Executes t vs result step) {f : StrategyFailure}
    (hf : result = .error f) {v : Passage} (hv : v ∈ vs) (hg : v.debited = true) :
    tx.type = .transfer ∧ step ≠ .none := by
  cases h with
  | debited type _ _ rest | resumed type _ _ rest => exact ⟨type, rest.step_ne⟩
  | moved | credited => cases hf
  | undebited | refused =>
    cases List.mem_singleton.mp hv
    simp [Passage.debited, Leg.asked] at hg

theorem Executes.refunds (h : tx.Executes t vs result step) :
    (vs.countP fun v => v.question.refunds) ≤ 1 ∧
      ∀ v ∈ vs, v.question.refunds = true → v.state.Keeps tx .debitDone := by
  cases h with
  | debited _ _ done rest =>
    refine ⟨?_, ?_⟩
    · simpa [Leg.asked, Leg.direction, advanced, Call.refunds] using rest.refunds.1
    · simp only [List.forall_mem_cons]
      refine ⟨nofun, nofun, fun v hv hr => ?_⟩
      rw [rest.refunds.2 v hv hr]
      exact done
  | resumed _ _ done rest =>
    exact ⟨rest.refunds.1, fun v hv hr => rest.refunds.2 v hv hr ▸ done⟩
  | undebited => simp [Leg.asked, Leg.direction, Call.refunds]
  | credited => simp
  | moved leg type own | refused leg type own =>
    cases leg with
    | debit | credit | refund => exact absurd own.symm type
    | deposit | withdraw => simp [Leg.asked, Leg.direction, Leg.phase, Call.refunds]

theorem Compensates.closes {c : Except ServiceError Compensation} (h : tx.Compensates t vs c) :
    ∀ v ∈ vs, v.question.Closes tx.id := by
  cases h <;> simp [Leg.asked, Leg.direction, Leg.phase, Call.Closes, OperationId.compensation]

theorem Compensates.refunds {c : Except ServiceError Compensation} (h : tx.Compensates t vs c) :
    (vs.countP fun v => v.question.refunds) ≤ 1 ∧
      ∀ v ∈ vs, v.question.refunds = true → v.state = t ∧ tx.step = .debitDone := by
  cases h with
  | unneeded => simp
  | refunded step | stranded step | postponed step =>
    simp [Leg.asked, Leg.direction, Leg.phase, Call.refunds, step]

end TransactionRecord

theorem Call.Closes.calls {id : TransactionId} {call : Call} (h : call.Closes id) :
    call.debits = false ∧ call.sleep? = none := by
  unfold Call.Closes at h
  split at h
  · exact ⟨rfl, rfl⟩
  · exact ⟨rfl, rfl⟩
  · exact ⟨rfl, rfl⟩
  · exact h.elim

namespace Round

variable {s : Service} {x : Round} {t : TransactionTable} {r r' : TransactionRecord}

theorem Ends.closes {ending : List Passage} {result : Except ServiceError TransactionView}
    (h : x.Ends r ending result r') : ∀ v ∈ ending, v.question.Closes r.id := by
  cases h with
  | completed | failed => simp [Call.Closes]
  | exhausted _ _ rest => simpa [Call.Closes, or_imp, forall_and] using rest.closes
  | postponed _ _ rest => simpa [Call.Closes] using rest.closes

theorem Ends.refunds {ending : List Passage} {result : Except ServiceError TransactionView}
    (h : x.Ends r ending result r') :
    (ending.countP fun v => v.question.refunds) ≤ (if x.contended then 1 else 0) ∧
      ∀ v ∈ ending, v.question.refunds = true → v.state = x.left ∧ r.step = .debitDone := by
  cases h with
  | completed | failed => simp [Call.refunds]
  | exhausted failure conflict rest =>
    rw [if_pos ((contended_of_error failure).trans conflict)]
    refine ⟨by simpa [Call.refunds] using rest.refunds.1, ?_⟩
    simpa [Call.refunds, or_imp, forall_and] using rest.refunds.2
  | postponed failure conflict rest =>
    rw [if_pos ((contended_of_error failure).trans conflict)]
    refine ⟨by simpa [Call.refunds] using rest.refunds.1, ?_⟩
    simpa [Call.refunds] using rest.refunds.2

theorem Takes.sleep? (h : x.Takes s t r r') : ∀ v ∈ x.visits, v.question.sleep? = none := by
  obtain ⟨step, now, hx, -⟩ := h.executes
  simpa [visits, Call.sleep?] using hx.sleep?

theorem Takes.debited (h : x.Takes s t r r') (hd : r.Debited) :
    r'.Debited ∧ ∀ v ∈ x.visits, v.question.debits = false := by
  obtain ⟨now, hrecord⟩ := h.record
  obtain ⟨step, now', hx, rfl⟩ := h.executes
  have hd : x.record.Debited := by
    rw [hrecord]
    exact hd
  refine ⟨⟨hd.1, hx.keeps_debited hd.2⟩, ?_⟩
  simpa [visits, Call.debits] using hx.debits.2 hd

/-- After a debit that was granted the transfer is debited, or there is no other round. -/
theorem Takes.granted (h : x.Takes s t r r') (hc : x.contended = true) {v : Passage}
    (hv : v ∈ x.visits) (hg : v.debited = true) : r'.Debited := by
  obtain ⟨now, hrecord⟩ := h.record
  obtain ⟨step, now', hx, rfl⟩ := h.executes
  have hv : v ∈ x.asked := by
    rcases List.mem_cons.mp hv with rfl | hv
    · cases hg
    rcases List.mem_cons.mp hv with rfl | hv
    · cases hg
    exact hv
  unfold contended at hc
  split at hc
  next hf => exact hx.granted hf hv hg
  next => cases hc

theorem Takes.debits (h : x.Takes s t r r') :
    x.visits.Pairwise fun v w => v.debited = true → w.question.debits = false := by
  obtain ⟨step, now, hx, -⟩ := h.executes
  have hasked : x.asked.Pairwise fun v w => v.debited = true → w.question.debits = false := by
    have htail := hx.debits.1
    cases hasked : x.asked with
    | nil => exact .nil
    | cons a rest =>
      rw [hasked] at htail
      refine .cons (fun w hw _ => htail w hw) ?_
      exact List.pairwise_of_forall_mem_list fun _ _ w hw _ => htail w hw
  exact .cons (fun _ _ => nofun) (.cons (fun _ _ => nofun) hasked)

theorem Takes.refunds (h : x.Takes s t r r') : (x.asked.countP fun v => v.question.refunds) ≤ 1 ∧
    ∀ v ∈ x.visits, v.question.refunds = true →
      ∃ q, v.state.row? r.id = some q ∧ q.step = .debitDone := by
  obtain ⟨now, hrecord⟩ := h.record
  obtain ⟨step, now', hx, -⟩ := h.executes
  have hid : x.record.id = r.id := by rw [hrecord, Write.apply_id]
  refine ⟨hx.refunds.1, ?_⟩
  simp only [visits, List.forall_mem_cons]
  refine ⟨nofun, nofun, fun v hv hr => ?_⟩
  obtain ⟨now, hkeeps⟩ := hx.refunds.2 v hv hr
  exact ⟨_, hid ▸ hkeeps, rfl⟩

/-- A round takes its record up once, first of all. -/
theorem Takes.takes (h : x.Takes s t r r') :
    (x.visits.countP fun v => v.question = .store (.markProcessing r.id)) = 1 := by
  obtain ⟨now, hrecord⟩ := h.record
  obtain ⟨step, now', hx, -⟩ := h.executes
  have hid : x.record.id = r.id := by rw [hrecord, Write.apply_id]
  have hasked : (x.asked.countP fun v => v.question = .store (.markProcessing r.id)) = 0 :=
    List.countP_eq_zero.mpr fun v hv => by simpa using hx.takes r.id v hv
  simp [visits, hid, hasked]

theorem Takes.attempts (h : x.Takes s t r r') : r'.attempts = r.attempts + 1 := by
  obtain ⟨step, now, rfl⟩ := h.leaves
  rfl

theorem Ends.attempts {ending : List Passage} {result : Except ServiceError TransactionView}
    (h : x.Ends r ending result r') : r'.attempts = r.attempts := by
  cases h with
  | completed _ closed =>
    rw [closed]
    rfl
  | failed | exhausted | postponed => rfl

end Round

namespace Service.Attempts

variable {s : Service} {left number : Nat} {t : TransactionTable} {r r' : TransactionRecord}
  {rounds : List Round} {ending : List Passage} {result : Except ServiceError TransactionView}

theorem length_pos (h : s.Attempts left t r rounds ending result r') : 0 < rounds.length := by
  cases h <;> simp

theorem length_le (h : s.Attempts left t r rounds ending result r') : rounds.length ≤ left + 1 := by
  induction h with
  | last => simp
  | again _ _ _ ih => simpa using ih

/-- Only a conflict is met by another attempt. -/
theorem retried (h : s.Attempts left t r rounds ending result r') :
    ∀ x ∈ rounds.dropLast, x.contended = true := by
  induction h with
  | last => simp
  | again _ contended later ih =>
    rw [List.dropLast_cons_of_ne_nil (List.ne_nil_of_length_pos later.length_pos)]
    exact List.forall_mem_cons.mpr ⟨contended, ih⟩

/-- Conflicts use up the attempts. -/
theorem spent (h : s.Attempts left t r rounds ending result r')
    (hc : ∀ x ∈ rounds, x.contended = true) : rounds.length = left + 1 := by
  induction h with
  | last _ spent => simp [spent (hc _ (by simp))]
  | again _ _ _ ih => simpa using ih fun x hx => hc x (List.mem_cons_of_mem _ hx)

theorem attempts (h : s.Attempts left t r rounds ending result r') :
    r'.attempts = r.attempts + rounds.length := by
  induction h with
  | last round _ ends =>
    rw [ends.attempts, round.attempts]
    rfl
  | again round _ _ ih =>
    rw [ih, round.attempts, List.length_cons]
    omega

/-- Each round takes the record up once, and the ending does not. -/
theorem taken (h : s.Attempts left t r rounds ending result r') :
    ((s.script number rounds ending).countP fun v => v.question = .store (.markProcessing r.id)) =
      rounds.length := by
  induction h generalizing number with
  | @last _ _ r _ _ _ ending _ round _ ends =>
    have hending : (ending.countP fun v => v.question = .store (.markProcessing r.id)) = 0 := by
      refine List.countP_eq_zero.mpr fun v hv => ?_
      have hcloses := ends.closes v hv
      rw [decide_eq_true_eq]
      intro hq
      rw [hq] at hcloses
      exact hcloses
    simp [script, round.takes, hending]
  | again round _ later ih =>
    rw [later.script_again, List.countP_append, round.takes]
    rw [← round.left_id]
    simp [ih, Nat.add_comm]

/-- The sleeps of a drive. They grow by the number of the attempt. -/
theorem sleeps (h : s.Attempts left t r rounds ending result r') :
    (s.script number rounds ending).filterMap (fun v => v.question.sleep?) =
      (List.range (rounds.length - 1)).map fun i => s.retry.backoff (number + i) := by
  induction h generalizing number with
  | last round _ ends =>
    have hvisits := List.filterMap_eq_nil_iff.mpr round.sleep?
    have hending := List.filterMap_eq_nil_iff.mpr fun v hv => (ends.closes v hv).calls.2
    simp [script, hvisits, hending]
  | again round _ later ih =>
    have hvisits := List.filterMap_eq_nil_iff.mpr round.sleep?
    obtain ⟨n, hn⟩ := Nat.exists_eq_add_of_lt later.length_pos
    rw [later.script_again, List.filterMap_append, hvisits, List.nil_append]
    simp [ih, hn, List.range_succ_eq_map, Nat.add_comm, Nat.add_left_comm]

/-- No debit is asked for after one that was granted, and none of a transfer that is debited. -/
theorem debits (h : s.Attempts left t r rounds ending result r') :
    ((s.script number rounds ending).Pairwise fun v w => v.debited = true → w.question.debits = false) ∧
      (r.Debited → ∀ v ∈ s.script number rounds ending, v.question.debits = false) := by
  induction h generalizing number with
  | last round _ ends =>
    have hending := fun v hv => (ends.closes v hv).calls.1
    refine ⟨List.pairwise_append.mpr ⟨round.debits, ?_, fun v _ w hw _ => hending w hw⟩, fun hd => ?_⟩
    · exact List.pairwise_of_forall_mem_list fun _ _ w hw _ => hending w hw
    · exact List.forall_mem_append.mpr ⟨(round.debited hd).2, hending⟩
  | again round contended later ih =>
    obtain ⟨hpairs, hdebited⟩ := ih
    rw [later.script_again]
    refine ⟨List.pairwise_append.mpr ⟨round.debits, .cons (fun _ _ => nofun) hpairs, ?_⟩, fun hd => ?_⟩
    · intro v hv w hw hg
      rcases List.mem_cons.mp hw with rfl | hw
      · rfl
      · exact hdebited (round.granted contended hv hg) w hw
    · obtain ⟨hd, hvisits⟩ := round.debited hd
      exact List.forall_mem_append.mpr ⟨hvisits, List.forall_mem_cons.mpr ⟨rfl, hdebited hd⟩⟩

theorem refunds (h : s.Attempts left t r rounds ending result r') :
    ∀ v ∈ s.script number rounds ending, v.question.refunds = true →
      ∃ q, v.state.row? r.id = some q ∧ q.step = .debitDone := by
  induction h generalizing number with
  | last round _ ends =>
    refine List.forall_mem_append.mpr ⟨round.refunds.2, fun v hv hr => ?_⟩
    obtain ⟨hstate, hstep⟩ := ends.refunds.2 v hv hr
    exact ⟨_, hstate ▸ round.left, hstep⟩
  | again round contended later ih =>
    rw [later.script_again]
    refine List.forall_mem_append.mpr ⟨round.refunds.2, List.forall_mem_cons.mpr ⟨nofun, ?_⟩⟩
    rw [← round.left_id]
    exact ih

/-- The rounds are rounds of the one record. -/
theorem takes (h : s.Attempts left t r rounds ending result r') :
    ∀ x ∈ rounds, ∃ t q q', x.Takes s t q q' ∧ q.id = r.id := by
  induction h with
  | last round => exact List.forall_mem_singleton.mpr ⟨_, _, _, round, rfl⟩
  | again round _ _ ih =>
    refine List.forall_mem_cons.mpr ⟨⟨_, _, _, round, rfl⟩, ?_⟩
    rw [← round.left_id]
    exact ih

theorem ending_closes (h : s.Attempts left t r rounds ending result r') :
    ∀ v ∈ ending, v.question.Closes r.id := by
  induction h with
  | last round _ ends =>
    rw [← round.left_id]
    exact ends.closes
  | again round _ _ ih =>
    rw [← round.left_id]
    exact ih

/-- The ending refunds once, and that after conflicts only. -/
theorem ending_refunds (h : s.Attempts left t r rounds ending result r') :
    (ending.countP fun v => v.question.refunds) ≤
      if ∀ x ∈ rounds, x.contended = true then 1 else 0 := by
  induction h with
  | last _ _ ends => simpa using ends.refunds.1
  | again _ contended _ ih => simpa [contended] using ih

end Service.Attempts

/-- How a drive retries: its record before and after, what it asked for, its executions, and what it
asked for after them. -/
structure Retries (s : Service) (r r' : TransactionRecord) (vs : List Passage) (rounds : List Round)
    (ending : List Passage) : Prop where
  script : vs = s.script 1 rounds ending
  executes : ∀ x ∈ rounds, x.record.id = r.id ∧ x.begun.row? r.id = some x.record ∧
    (s.execute x.record.type x.record).run.Goes TransactionTable.serves x.begun x.asked
      (.value x.result) x.left
  closes : ∀ v ∈ ending, v.question.Closes r.id
  first : 1 ≤ rounds.length
  bounded : rounds.length ≤ max 1 s.retry.maxAttempts
  conflicts : ∀ x ∈ rounds.dropLast, x.contended = true
  exhausted : (∀ x ∈ rounds, x.contended = true) → rounds.length = max 1 s.retry.maxAttempts
  attempts : r'.attempts = r.attempts + rounds.length
  taken : (vs.countP fun v => v.question = .store (.markProcessing r.id)) = rounds.length
  between : ∀ v ∈ vs, ∀ q, v.state.row? r.id = some q →
    r.attempts ≤ q.attempts ∧ q.attempts ≤ r'.attempts
  sleeps : vs.filterMap (fun v => v.question.sleep?) =
    (List.range (rounds.length - 1)).map fun i => min (s.retry.backoffMs * (i + 1)) 18446744073709551615
  once : vs.Pairwise fun v w => v.debited = true → w.question.debits = false
  resumed : r.type = .transfer → r.step ≠ .none → ∀ v ∈ vs, v.question.debits = false
  refunds : ∀ v ∈ vs, v.question.refunds = true →
    ∃ q, v.state.row? r.id = some q ∧ q.step = .debitDone
  refund : ∀ x ∈ rounds, (x.asked.countP fun v => v.question.refunds) ≤ 1
  last : (ending.countP fun v => v.question.refunds) ≤
    if ∀ x ∈ rounds, x.contended = true then 1 else 0

/-- Whatever the ledger answers, a drive of an open record executes the strategy until it meets no
conflict or the attempts are used up. -/
theorem Service.drive_retries {s : Service} {t t' : TransactionTable} {r : TransactionRecord}
    {vs : List Passage} {outcome : Flow.Outcome (Except ServiceError TransactionView)}
    (hr : t.row? r.id = some r) (hp : r.Pending)
    (h : (s.drive r.id).run.Goes TransactionTable.serves t vs outcome t') :
    ∃ result rounds ending r', outcome = .value result ∧ t'.row? r.id = some r' ∧
      Retries s r r' vs rounds ending := by
  have hbetween := (h.uptakes (fun t => t) r.id
    fun _ _ _ _ hm => TransactionTable.serves_uptakes hm r.id).2
  obtain ⟨result, rfl, rounds, ending, r', ha, rfl, hr'⟩ := driveFrom_returns hr hp _ _ _ h
  have hleft : s.retry.maxAttempts - 1 + 1 = max 1 s.retry.maxAttempts := by omega
  refine ⟨result, rounds, ending, r', rfl, hr', ?_⟩
  exact {
    script := rfl
    executes := by
      intro x hx
      obtain ⟨t₁, q, q', htakes, hid⟩ := ha.takes x hx
      obtain ⟨now, hrecord⟩ := htakes.record
      rw [← hid]
      exact ⟨by rw [hrecord, Write.apply_id], htakes.begun, htakes.goes⟩
    closes := ha.ending_closes
    first := ha.length_pos
    bounded := hleft ▸ ha.length_le
    conflicts := ha.retried
    exhausted := fun hc => hleft ▸ ha.spent hc
    attempts := ha.attempts
    taken := ha.taken
    between := by
      intro v hv q hq
      have hv := hbetween v hv
      rwa [TransactionTable.attempts_of_row? hr, TransactionTable.attempts_of_row? hq,
        TransactionTable.attempts_of_row? hr'] at hv
    sleeps := by
      rw [ha.sleeps]
      exact List.map_congr_left fun i _ => by rw [RetrySettings.backoff, Nat.add_comm]; rfl
    once := ha.debits.1
    resumed := fun ht hs => ha.debits.2 ⟨ht, hs⟩
    refunds := ha.refunds
    refund := by
      intro x hx
      obtain ⟨t₁, q, q', htakes, -⟩ := ha.takes x hx
      exact htakes.refunds.1
    last := ha.ending_refunds }

def requestedTransfer : TransactionRecord :=
  ⟨⟨1, some 1, some 2, .one, .one, .one, .usd, .transfer, some 1, "a"⟩, 1, .created, .none, .none, 0,
    none, 0, 3⟩

/-- The target stays locked: the transfer is tried three times, and refunded in the end. -/
theorem Service.drive_retries_lockedTarget : ∃ vs rounds ending r',
    Retries plainService requestedTransfer r' vs rounds ending ∧ rounds.length = 3 ∧
      ∃ v ∈ vs, v.question.refunds = true := by
  obtain ⟨⟨vs, outcome, t'⟩, hway, hend⟩ := Option.map_eq_some_iff.mp (show
    ((plainService.drive 1).run.way (TransactionTable.serving 7 lockedLedger)
      ⟨[requestedTransfer], [("a", 1)]⟩).map
      (fun w => (w.2.2.rows.map (·.attempts), w.1.any fun v => v.question.refunds)) =
      some ([3], true) by decide +kernel)
  obtain ⟨hattempts, hrefund⟩ := Prod.mk.inj hend
  have hgoes := Flow.goes_of_way TransactionTable.serves_of_serving hway
  have hformed : requestedTransfer.payload.WellFormed := by
    simp [requestedTransfer, NewTransaction.WellFormed]
  obtain ⟨result, rounds, ending, r', -, hr', hretries⟩ :=
    drive_retries (r := requestedTransfer) rfl ⟨rfl, hformed, rfl⟩ hgoes
  have hlast : r'.attempts ∈ t'.rows.map (·.attempts) :=
    List.mem_map_of_mem (TransactionTable.mem_of_row? hr').1
  rw [hattempts, List.mem_singleton, hretries.attempts] at hlast
  refine ⟨vs, rounds, ending, r', hretries, ?_, List.any_eq_true.mp hrefund⟩
  simp only [requestedTransfer] at hlast
  omega

end Settlement
