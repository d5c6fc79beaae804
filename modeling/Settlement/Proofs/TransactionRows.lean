import Settlement.Proofs.Server
import Settlement.Proofs.Table
import Settlement.Sql.Transactions

/-!
Records as rows of a table: what is read from a row is the record, conditions on the row are conditions
on the record, and a write on the row is one on the record.
-/

namespace Settlement

/-- The same record, with amounts and a rate of the same value. -/
structure TransactionRecord.Alike (r r' : TransactionRecord) : Prop where
  rest : r' = { r with amount := r'.amount, targetAmount := r'.targetAmount, rate := r'.rate }
  amount : r'.amount.value = r.amount.value
  targetAmount : r'.targetAmount.value = r.targetAmount.value
  rate : r'.rate.value = r.rate.value

inductive InsertOutcome.Alike : InsertOutcome → InsertOutcome → Prop
  | inserted {r r' : TransactionRecord} (record : r.Alike r') : Alike (.inserted r) (.inserted r')
  | duplicateKey : Alike .duplicateKey .duplicateKey

theorem TransactionStatus.ofId?_id (s : TransactionStatus) : ofId? s.id = some s := by
  cases s <;> rfl

theorem TransactionStep.ofId?_id (s : TransactionStep) : ofId? s.id = some s := by
  cases s <;> rfl

theorem CompensationStatus.ofId?_id (s : CompensationStatus) : ofId? s.id = some s := by
  cases s <;> rfl

theorem OperationType.ofId?_id (t : OperationType) : ofId? t.id = some t := by
  cases t <;> rfl

theorem Currency.read_code (c : Currency) : read c.code = .ok c := by
  cases c <;> decide +kernel

def Instant.Told (t : Instant) : Prop := Instant.first ≤ t ∧ t ≤ Instant.last

instance (t : Instant) : Decidable t.Told :=
  inferInstanceAs (Decidable (Instant.first ≤ t ∧ t ≤ Instant.last))

theorem Instant.Told.inside {t : Instant} (h : t.Told) : ¬(t < Instant.first ∨ Instant.last < t) := by
  rintro (hlt | hlt)
  · exact absurd h.1 (Int.not_le.mpr hlt)
  · exact absurd h.2 (Int.not_le.mpr hlt)

namespace Sql

def recordRow (r : TransactionRecord) : Row := [
  (⟨"tx_id", .int8⟩, .int r.id), (⟨"user_id", .int8⟩, .int r.user),
  (⟨"source_account_id", .int8⟩, (Arg.ofOption .int r.source).cell),
  (⟨"target_account_id", .int8⟩, (Arg.ofOption .int r.target).cell),
  (⟨"amount", .numeric⟩, .numeric (.ofDecimal r.amount)),
  (⟨"target_amount", .numeric⟩, .numeric (.ofDecimal r.targetAmount)),
  (⟨"exchange_rate", .numeric⟩, .numeric (.ofDecimal r.rate)),
  (⟨"currency", .varchar⟩, .text r.currency.code), (⟨"status", .int2⟩, .int r.status.id),
  (⟨"step", .int2⟩, .int r.step.id), (⟨"compensation", .int2⟩, .int r.compensation.id),
  (⟨"operation_type", .int2⟩, .int r.type.id),
  (⟨"category_id", .int8⟩, (Arg.ofOption .int r.category).cell),
  (⟨"idempotency_key", .varchar⟩, .text r.key), (⟨"attempts", .int4⟩, .int r.attempts),
  (⟨"error_message", .text⟩, (Arg.ofOption .text r.errorMessage).cell),
  (⟨"created_at", .timestamptz⟩, .instant r.createdAt),
  (⟨"updated_at", .timestamptz⟩, .instant r.updatedAt)]

namespace Transactions

open Session

section

variable {r : TransactionRecord}

theorem read_optional_int (n : Option Int) :
    (Reader.int64.optional).read .int8 (Arg.ofOption .int n).cell = .ok n := by
  cases n <;> rfl

theorem read_optional_text (s : Option String) :
    (Reader.text.optional).read .text (Arg.ofOption .text s).cell = .ok s := by
  cases s <;> rfl

theorem read_decimal (d : Decimal) : ∃ d', Reader.decimal.read .numeric (.numeric (.ofDecimal d)) =
    .ok d' ∧ d'.value = d.value := by
  obtain ⟨d', hd, hv⟩ := Numeric.toDecimal_exact ⟨d, (Numeric.value_ofDecimal d).symm⟩
  exact ⟨d', hd, hv.trans (Numeric.value_ofDecimal d)⟩

theorem read_int64 (n : Int) : Reader.int64.read .int8 (.int n) = .ok n := rfl

theorem read_int32 (n : Int) : Reader.int32.read .int4 (.int n) = .ok n := rfl

theorem read_int16 (n : Int) : Reader.int16.read .int2 (.int n) = .ok n := rfl

theorem read_text (s : String) : Reader.text.read .varchar (.text s) = .ok s := rfl

theorem read_instant (t : Instant) : Reader.instant.read .timestamptz (.instant t) = .ok t := rfl

/-- What is read from the row is the record. -/
theorem ofRow_recordRow (hc : r.createdAt.Told) (hu : r.updatedAt.Told) :
    ∃ r', ofRow (recordRow r) = pure r' ∧ r.Alike r' := by
  obtain ⟨amount, ha, hav⟩ := read_decimal r.amount
  obtain ⟨targetAmount, ht, htv⟩ := read_decimal r.targetAmount
  obtain ⟨rate, hr, hrv⟩ := read_decimal r.rate
  refine ⟨{ r with amount, targetAmount, rate }, ?_, ⟨rfl, hav, htv, hrv⟩⟩
  simp [ofRow, stateColumn, column, instantColumn, Row.byName, recordRow, read_int64, read_int32,
    read_int16, read_text, read_instant, read_optional_int, read_optional_text, ha, ht, hr,
    Except.mapError, Currency.read_code, TransactionStatus.ofId?_id, TransactionStep.ofId?_id,
    CompensationStatus.ofId?_id, OperationType.ofId?_id, hc.inside, hu.inside]

/-- All rows are read as their records. -/
theorem ofRows_recordRows {rs : List TransactionRecord}
    (ht : ∀ r ∈ rs, r.createdAt.Told ∧ r.updatedAt.Told) :
    ∃ rs', ofRows (rs.map recordRow) = pure rs' ∧ List.Forall₂ TransactionRecord.Alike rs rs' := by
  induction rs with
  | nil => exact ⟨[], rfl, .nil⟩
  | cons r rs ih =>
    obtain ⟨rs', hrest, halike⟩ := ih fun r hr => ht r (List.mem_cons_of_mem _ hr)
    obtain ⟨hc, hu⟩ := ht r List.mem_cons_self
    have hread := ofRow_recordRow hc hu
    cases hread with
    | intro r' hread =>
      refine ⟨r' :: rs', ?_, .cons hread.2 halike⟩
      rw [ofRows] at hrest ⊢
      rw [List.map_cons, List.mapM_cons, hread.1, pure_bind, hrest, pure_bind]

/-- All columns are shown, in their order. -/
theorem recordRow_shown (e : Reading) :
    (Relation.transactions.fields.map fun f => Term.column f.name).map (Term.shown e (recordRow r)) =
      recordRow r := by
  simp [Relation.fields, Term.shown, recordRow]

theorem recordRow_fault (r : TransactionRecord) :
    Relation.transactions.fault? (recordRow r) = none := by
  simp [Relation.fault?, Relation.fields, recordRow, Row.cell, Field.fault?]

theorem equal_id (e : Reading) (id : TransactionId) (n : Nat)
    (hn : e.params[n - 1]? = some (.int id)) :
    (Condition.equal "tx_id" (.param n)).holds e (recordRow r) = (r.id == id) := by
  simp [Condition.holds, Row.cell, recordRow, Term.eval, hn]

/-- The open states, wherever they stand among the parameters. -/
theorem oneOf_open (e : Reading) (m n : Nat)
    (hm : e.params[m - 1]? = some (.int TransactionStatus.created.id))
    (hn : e.params[n - 1]? = some (.int TransactionStatus.processing.id)) :
    (Condition.oneOf "status" [.param m, .param n]).holds e (recordRow r) = !r.status.isTerminal := by
  simp [Condition.holds, Row.cell, recordRow, Term.eval, hm, hn]
  cases r.status <;> rfl

def statementOf (id : TransactionId) : Write → Statement
  | .take => .markProcessing id
  | .advance step => .advanceStep id step
  | .close fin => .finalize id fin

/-- A conditional write picks the row of its id if the write is allowed there, and makes of it what the
write makes of the record. -/
theorem statementOf_query (site : Site) (id : TransactionId) (w : Write) :
    ∃ changes conditions,
      (statementOf id w).query? = some (.update .transactions changes conditions) ∧
      (∀ r, meets (site.reading (statementOf id w)) conditions (recordRow r) =
        (r.id == id && w.allows r)) ∧
      ∀ r, Query.written (site.reading (statementOf id w)) changes (recordRow r) =
        recordRow (w.apply site.now r) := by
  cases w with
  | take =>
    refine ⟨_, _, rfl, fun r => ?_, fun r => ?_⟩
    · simp only [meets, List.all_cons, List.all_nil, Bool.and_true]
      rw [equal_id _ id 2 rfl, oneOf_open _ 3 1 rfl rfl]
      rfl
    · simp [Query.written, Row.with_, recordRow, Row.cell, Term.eval, Cell.into, Cell.plus,
        List.lookup_cons, Site.reading, statementOf, Statement.args, Write.apply]
  | advance step =>
    refine ⟨_, _, rfl, fun r => ?_, fun r => ?_⟩
    · have hless : (Condition.less "step" (.param 1)).holds
          (site.reading (statementOf id (.advance step))) (recordRow r) = decide (r.step < step) := by
        simp [Condition.holds, Row.cell, recordRow, Term.eval, Site.reading, statementOf,
          Statement.args]
        rfl
      simp only [meets, List.all_cons, List.all_nil, Bool.and_true]
      rw [equal_id _ id 2 rfl, hless, oneOf_open _ 3 4 rfl rfl]
      rfl
    · simp [Query.written, Row.with_, recordRow, Term.eval, Cell.into,
        List.lookup_cons, Site.reading, statementOf, Statement.args, Write.apply]
  | close fin =>
    refine ⟨_, _, rfl, fun r => ?_, fun r => ?_⟩
    · simp only [meets, List.all_cons, List.all_nil, Bool.and_true]
      rw [equal_id _ id 4 rfl, oneOf_open _ 5 6 rfl rfl]
      rfl
    · simp [Query.written, Row.with_, recordRow, Term.eval, Cell.into,
        List.lookup_cons, Site.reading, statementOf, Statement.args, Write.apply]

/-- The stuck records are the open ones last touched before the cutoff. -/
theorem stuck_meets (site : Site) (cutoff : Instant) (limit : Int) (r : TransactionRecord) :
    meets (site.reading (.findStuck cutoff limit))
      [.oneOf "status" [.param 1, .param 2], .less "updated_at" (.param 3)] (recordRow r) =
        (!r.status.isTerminal && decide (r.updatedAt < cutoff)) := by
  have hless : (Condition.less "updated_at" (.param 3)).holds
      (site.reading (.findStuck cutoff limit)) (recordRow r) = decide (r.updatedAt < cutoff) := by
    simp [Condition.holds, Row.cell, recordRow, Term.eval, Site.reading, Statement.args,
      Statement.openStates]
  simp only [meets, List.all_cons, List.all_nil, Bool.and_true]
  rw [oneOf_open _ 1 2 rfl rfl, hless]

/-- Spending is counted by user, status, type and the time of creation. -/
theorem spending_meets (site : Site) (user : UserId) (since : Instant) (r : TransactionRecord) :
    meets (site.reading (.sumSpending user since))
      [.equal "user_id" (.param 1), .equal "status" (.param 2),
        .oneOf "operation_type" [.param 3, .param 4], .atLeast "created_at" (.param 5)]
      (recordRow r) =
        (r.user == user && r.status == .completed && r.type.isSpending &&
          decide (since ≤ r.createdAt)) := by
  set e := site.reading (.sumSpending user since) with he
  have huser : (Condition.equal "user_id" (.param 1)).holds e (recordRow r) = (r.user == user) := by
    simp [Condition.holds, Row.cell, recordRow, Term.eval, he, Site.reading, Statement.args]
  have hstatus : (Condition.equal "status" (.param 2)).holds e (recordRow r) =
      (r.status == .completed) := by
    simp [Condition.holds, Row.cell, recordRow, Term.eval, he, Site.reading, Statement.args]
    cases r.status <;> decide
  have htype : (Condition.oneOf "operation_type" [.param 3, .param 4]).holds e (recordRow r) =
      r.type.isSpending := by
    simp [Condition.holds, Row.cell, recordRow, Term.eval, he, Site.reading, Statement.args]
    cases r.type <;> rfl
  have hsince : (Condition.atLeast "created_at" (.param 5)).holds e (recordRow r) =
      decide (since ≤ r.createdAt) := by
    rw [Bool.eq_iff_iff]
    simp [Condition.holds, Row.cell, recordRow, Term.eval, he, Site.reading, Statement.args]
    exact (Int.le_iff_lt_or_eq.trans (or_congr_right eq_comm)).symm
  simp only [meets, List.all_cons, List.all_nil, Bool.and_true, huser, hstatus, htype, hsince,
    Bool.and_assoc]

theorem recordRow_filled (new : NewTransaction) (count : Nat) (site : Site) :
    Relation.transactions.fill (site.reading (.insertTransaction new)) count
      ([("user_id", Term.param 1), ("source_account_id", .param 2), ("target_account_id", .param 3),
        ("amount", .param 4), ("target_amount", .param 5), ("exchange_rate", .param 6),
        ("currency", .param 7), ("status", .param 8), ("step", .param 9),
        ("compensation", .param 10), ("operation_type", .param 11), ("category_id", .param 12),
        ("idempotency_key", .param 13), ("created_at", .now), ("updated_at", .now)].map
        fun (name, term) => (name, term.eval (site.reading (.insertTransaction new)) [])) =
    recordRow (TransactionTable.fresh new (count + 1) site.now) := by
  simp [Relation.fill, Relation.fields, recordRow, Field.column, Kind.type, Term.eval, Cell.into,
    List.lookup_cons, Site.reading, Statement.args, Field.initial, Field.default?,
    TransactionTable.fresh, Arg.ofOption]

theorem agrees_id (r r' : TransactionRecord) :
    (recordRow r).agrees (recordRow r') ["tx_id"] = (r.id == r'.id) := by
  simp [Row.agrees, Row.cell, recordRow]

theorem agrees_key (r r' : TransactionRecord) :
    (recordRow r).agrees (recordRow r') ["idempotency_key"] = (r.key == r'.key) := by
  simp [Row.agrees, Row.cell, recordRow]

end

end Transactions
end Sql
end Settlement
