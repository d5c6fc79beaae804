import Mathlib.Data.List.Nodup
import Settlement.Proofs.Agreement
import Settlement.Proofs.Atomicity
import Settlement.Proofs.Bookkeeping
import Settlement.Proofs.OperationTexts
import Settlement.Proofs.Server

/-!
The ledger in memory beside the ledger in a database. Main statements: as long as every new balance is
a decimal, each mutation gets the same answer from both, and accounts and applied rows stay the same.
-/

namespace Settlement

inductive LedgerError.Alike : LedgerError → LedgerError → Prop
  | same (e : LedgerError) : Alike e e
  | funds {account : AccountId} {balance balance' requested requested' : Decimal}
      (balances : balance.value = balance'.value) (requests : requested.value = requested'.value) :
      Alike (.insufficientFunds account balance requested)
        (.insufficientFunds account balance' requested')

theorem AccountStatus.ofId?_id (status : AccountStatus) : ofId? status.id = some status := by
  cases status <;> rfl

namespace Sql

/-- A row of the accounts. What the account in memory lacks is the instant of its creation. -/
def accountRow (a : Account) (balance : Numeric) (createdAt : Instant) : Row := [
  (⟨"account_id", .int8⟩, .int a.id), (⟨"owner_id", .int8⟩, .int a.owner),
  (⟨"currency", .varchar⟩, .text a.currency.code), (⟨"balance", .numeric⟩, .numeric balance),
  (⟨"status", .int2⟩, .int a.status.id), (⟨"created_at", .timestamptz⟩, .instant createdAt)]

def appliedRow (r : AppliedRow) (amount : Numeric) (appliedAt : Instant) : Row := [
  (⟨"operation_id", .varchar⟩, .text r.operation.text), (⟨"account_id", .int8⟩, .int r.account),
  (⟨"amount", .numeric⟩, .numeric amount), (⟨"applied_at", .timestamptz⟩, .instant appliedAt)]

def HoldsAccount (row : Row) (a : Account) : Prop :=
  ∃ balance createdAt, row = accountRow a balance createdAt ∧ balance.value = a.balance.value ∧
    Decimal.zero ≤ a.balance

def HoldsApplied (row : Row) (r : AppliedRow) : Prop :=
  ∃ amount appliedAt, row = appliedRow r amount appliedAt ∧ amount.value = r.amount.value

/-- The tables of a ledger and a book of the same contents, with no account held by anybody. -/
structure Corresponds (tables : Tables) (b : Book) : Prop where
  accounts : List.Forall₂ HoldsAccount (tables .accounts) b.accounts
  applied : List.Forall₂ HoldsApplied (tables .applied) b.applied
  ids : (b.accounts.map (·.id)).Nodup
  free : b.held = []

namespace Ledger

open Reports Session

variable {a : Account} {balance : Numeric} {createdAt : Instant} {e : Reading}

theorem accountRow_meets {id : AccountId} {n : Nat} (hp : e.params[n - 1]? = some (.int id)) :
    meets e [.equal "account_id" (.param n)] (accountRow a balance createdAt) = (a.id == id) := by
  simp [meets, Condition.holds, Row.cell, accountRow, Term.eval, hp, Cell.equals]

def seenRow (balance : Numeric) (status : AccountStatus) : Row :=
  [(⟨"balance", .numeric⟩, .numeric balance), (⟨"status", .int2⟩, .int status.id)]

theorem accountRow_shown : [Term.column "balance", .column "status"].map
    (Term.shown e (accountRow a balance createdAt)) = seenRow balance a.status := by
  simp [Term.shown, accountRow, seenRow]

theorem read_balance {status : AccountStatus} {d : Decimal} (h : balance.toDecimal = .ok d) :
    (seenRow balance status).byName "balance" .decimal = .ok d := by
  simp [seenRow, Row.byName, Reader.read, Reader.decimal, h, Except.mapError]

theorem read_status {status : AccountStatus} :
    (seenRow balance status).byName "status" .int16 = .ok status.id := by
  simp [seenRow, Row.byName, Reader.read, Reader.int16, Reader.int64, Except.mapError]

theorem accountRow_fault (h : 0 ≤ balance.value) :
    Relation.accounts.fault? (accountRow a balance createdAt) = none := by
  have hfloor : (Cell.numeric balance).less (.numeric ⟨0, 0⟩) = false := by
    simpa [Numeric.value] using h
  simp [Relation.fault?, Relation.fields, accountRow, Row.cell, Field.fault?_eq_none, hfloor,
    Cell.less_numeric_of_ne]

theorem accountRow_written {delta : Numeric} (hp : e.params[0]? = some (.numeric delta)) :
    Query.written e [("balance", .plus (.column "balance") (.param 1))]
      (accountRow a balance createdAt) = accountRow a (balance.add delta) createdAt := by
  simp [Query.written, Row.with_, accountRow, Term.eval, Row.cell, hp, Cell.plus, Cell.into,
    List.lookup_cons]

variable {r : AppliedRow} {amount : Numeric} {appliedAt : Instant}

theorem appliedRow_meets {operation : OperationId} {id : AccountId}
    (hp : e.params = [.text operation.text, .int id]) :
    meets e [.equal "operation_id" (.param 1), .equal "account_id" (.param 2)]
      (appliedRow r amount appliedAt) = (r.operation == operation && r.account == id) := by
  rw [Bool.eq_iff_iff]
  simp [meets, Condition.holds, Row.cell, appliedRow, Term.eval, hp, OperationId.text_inj]

theorem appliedRow_filled {delta : Numeric} {count : Nat} {e : Reading}
    (hp : e.params = [.text r.operation.text, .int r.account, .numeric delta]) :
    Relation.applied.fill e count
      ([("operation_id", Term.param 1), ("account_id", .param 2), ("amount", .param 3),
        ("applied_at", .now)].map fun (name, term) => (name, term.eval e [])) =
    appliedRow r delta e.now := by
  simp [Relation.fill, Relation.fields, appliedRow, Field.column, Kind.type, Term.eval, hp, Cell.into,
    List.lookup_cons]

theorem appliedRow_fault :
    Relation.applied.fault? (appliedRow r amount appliedAt) = none := by
  simp [Relation.fault?, Relation.fields, appliedRow, Row.cell, Field.fault?]

namespace Mutation

variable {m : Mutation} {b : Book}

def onBook (m : Mutation) (b : Book) : Flow.Outcome (Except LedgerError MutationOutcome) × Book :=
  b.mutate m.direction m.account m.amount m.operation

/-- If the mutation comes to change the balance, then to that of some decimal. -/
def Exact (m : Mutation) (b : Book) : Prop :=
  ∀ account, ¬m.amount ≤ Decimal.zero → b.account? m.account = some account →
    b.row? m.operation m.account = none → Book.accept m.direction account m.amount = .ok () →
    Decimal.Fits (account.balance.value + m.delta.value)

theorem onBook_unknown (hp : ¬m.amount ≤ Decimal.zero) (ha : b.account? m.account = none) :
    m.onBook b = (.value (.error (.accountNotFound m.account)), b) := by
  simp [onBook, Book.mutate, hp, Book.lock, ha]

theorem onBook_known {a : Account} (hp : ¬m.amount ≤ Decimal.zero) (hl : b.lock m.account = .ok a)
    (hr : (b.row? m.operation m.account).isSome) : m.onBook b = (.value (.ok .replayed), b) := by
  simp [onBook, Book.mutate, hp, hl, hr]

theorem onBook_refused {a : Account} {e : LedgerError} (hp : ¬m.amount ≤ Decimal.zero)
    (hl : b.lock m.account = .ok a) (hr : b.row? m.operation m.account = none)
    (he : Book.accept m.direction a m.amount = .error e) : m.onBook b = (.value (.error e), b) := by
  simp [onBook, Book.mutate, hp, hl, hr, he]

/-- A mutation that is let through is applied, if its sum is exact. -/
theorem Exact.admits {a : Account} (hx : m.Exact b) (hp : ¬m.amount ≤ Decimal.zero)
    (hl : b.lock m.account = .ok a) (hr : b.row? m.operation m.account = none)
    (he : Book.accept m.direction a m.amount = .ok ()) :
    ∃ balance, b.Admits m.direction m.account m.amount m.operation a balance ∧
      balance.value = a.balance.value + m.delta.value := by
  obtain ⟨d, hd⟩ := hx a hp (Book.account?_of_lock hl) hr he
  obtain ⟨balance, hadd, hv⟩ := Decimal.add_exact hd
  obtain ⟨hfound, hfree⟩ := Book.lock_iff.mp hl
  obtain ⟨hown, hfirst⟩ := Book.account?_eq_some.mp hfound
  obtain ⟨hactive, hcovered⟩ := Book.accept_iff.mp he
  refine ⟨balance, ⟨hp, hown, hfirst, hfree, fun hs => ?_, hactive, hcovered, _,
    m.direction.signs_delta m.amount, hadd⟩, hv⟩
  have hsome := b.row?_isSome.mpr hs
  rw [hr] at hsome
  cases hsome

def Concludes (m : Mutation) (b : Book) (start : Tables) : Verdict → Server → Prop
  | .refused e, server =>
    server.tables = start ∧ ∃ e', m.onBook b = (.value (.error e'), b) ∧ e'.Alike e
  | .known, server | .outrun, server =>
    server.tables = start ∧ m.onBook b = (.value (.ok .replayed), b)
  | .written, server =>
    ∃ tables b', server = ⟨start, .pending tables⟩ ∧ m.onBook b = (.value (.ok .applied), b') ∧
      Corresponds tables b'

section

variable (site : Site) {start tables : Tables} {a : Account} {balance : Decimal}

/-- The balance of the account is written, and nothing else. -/
theorem run_addBalance (hc : Corresponds tables b) (ha : b.account? m.account = some a)
    (hv : balance.value = a.balance.value + m.delta.value) (h0 : Decimal.zero ≤ balance) :
    ∃ q rows, (Statement.addBalance m.delta m.account).query? = some q ∧
      q.run site.scan (site.reading (.addBalance m.delta m.account)) tables =
        .ok (⟨[], b.accounts.countP (·.id == m.account)⟩, Function.update tables .accounts rows) ∧
      List.Forall₂ HoldsAccount rows (b.put { a with balance }).accounts := by
  have ham : a ∈ b.accounts := List.mem_of_find?_eq_some ha
  have haid : a.id = m.account := by simpa using List.find?_some ha
  have hp : ∀ row x, HoldsAccount row x →
      meets (site.reading (.addBalance m.delta m.account)) [.equal "account_id" (.param 2)] row =
        (x.id == m.account) := by
    rintro _ x ⟨n, createdAt, rfl, -, -⟩
    exact accountRow_meets rfl
  have hw : ∀ row x, HoldsAccount row x → x ∈ b.accounts → (x.id == m.account) = true →
      HoldsAccount (Query.written (site.reading (.addBalance m.delta m.account))
        [("balance", .plus (.column "balance") (.param 1))] row) { a with balance } := by
    rintro _ x ⟨n, createdAt, rfl, hn, -⟩ hx hid
    -- The row met is that of `a`, whose new balance is the exact sum.
    have hxa : x = a :=
      List.inj_on_of_nodup_map hc.ids hx ham ((eq_of_beq hid).trans haid.symm)
    subst hxa
    refine ⟨n.add (.ofDecimal m.delta), createdAt, accountRow_written rfl, ?_, h0⟩
    rw [Numeric.value_add, Numeric.value_ofDecimal, hn, hv]
  refine ⟨_, _, rfl, Query.run_update hc.accounts hp hw ?_, ?_⟩
  · rintro _ x ⟨n, createdAt, rfl, hn, hz⟩
    refine accountRow_fault ?_
    rw [hn, ← Decimal.value_zero]
    exact Decimal.le_iff_value.mp hz
  · have hput : (b.put { a with balance }).accounts =
        b.accounts.map fun x => if x.id == m.account then { a with balance } else x := by
      simp [Book.put, haid]
    rw [hput]
    exact Query.updated_matches hc.accounts hp hw

/-- The applied row is stored. -/
theorem run_insertApplied (hc : List.Forall₂ HoldsApplied (tables .applied) b.applied)
    (hr : b.row? m.operation m.account = none) :
    ∃ q row, (Statement.insertApplied m.operation m.account m.delta).query? = some q ∧
      q.run site.scan (site.reading (.insertApplied m.operation m.account m.delta)) tables =
        .ok (⟨[], 1⟩, Function.update tables .applied (tables .applied ++ [row])) ∧
      HoldsApplied row ⟨m.operation, m.account, m.delta⟩ := by
  have hfree : ∀ other ∈ tables .applied,
      (appliedRow ⟨m.operation, m.account, m.delta⟩ (.ofDecimal m.delta) site.now).agrees other
        ["operation_id", "account_id"] = false := by
    intro other ho
    obtain ⟨r, hmem, ⟨n, appliedAt, rfl, -⟩⟩ := Query.exists_of_mem hc other ho
    have hne := List.find?_eq_none.mp hr r hmem
    rw [Bool.eq_false_iff]
    intro hag
    refine hne ?_
    simp [Row.agrees, appliedRow, Row.cell, OperationId.text_inj] at hag
    simp [hag.1, hag.2]
  refine ⟨_, _, rfl, Query.run_insert (appliedRow_filled rfl) appliedRow_fault (fun _ => hfree) ?_, ?_⟩
  · intro key hkey
    have hkeys : Relation.applied.keys = [["operation_id", "account_id"]] := rfl
    rw [hkeys, List.mem_singleton] at hkey
    subst hkey
    exact hfree
  · exact ⟨_, _, rfl, Numeric.value_ofDecimal _⟩

variable {lockTimeoutMs : Nat}

/-- Both writes go through. -/
theorem reports_writes (hc : Corresponds tables b)
    (ha : b.Admits m.direction m.account m.amount m.operation a balance)
    (hv : balance.value = a.balance.value + m.delta.value) :
    Reports site.asking (do
        let _ ← execute (.addBalance m.delta m.account)
        if (← execute (.insertApplied m.operation m.account m.delta)) = 0 then
          return Verdict.outrun
        return Verdict.written)
      (m.Concludes b start) (fun _ _ => False) (fun _ => False) ⟨start, .pending tables⟩ := by
  have h0 : Decimal.zero ≤ balance := by
    obtain ⟨row, -, ⟨_, _, -, -, hz⟩⟩ := Query.exists_of_mem hc.accounts.flip a (Book.lock_mem ha.free)
    exact ha.solvent hz
  have hr : b.row? m.operation m.account = none := by
    rw [← Option.not_isSome_iff_eq_none, b.row?_isSome]
    exact ha.fresh
  obtain ⟨q, rows, hq, hrun, hrows⟩ :=
    run_addBalance site hc (Book.account?_of_lock ha.free) hv h0
  refine of_bind.2 (Site.reports_execute hq rfl hrun ?_)
  have happlied : List.Forall₂ HoldsApplied
      ((Function.update tables Relation.accounts rows) .applied) b.applied := by
    rw [Function.update_of_ne (by decide)]
    exact hc.applied
  obtain ⟨q', row, hq', hrun', hrow⟩ := run_insertApplied site happlied hr
  refine of_bind.2 (Site.reports_execute hq' rfl hrun' ?_)
  refine ⟨_, _, rfl, ha.mutate, ?_, ?_, ?_, hc.free⟩
  · rw [Function.update_of_ne (by decide), Function.update_self]
    exact hrows
  · rw [Function.update_self]
    exact List.rel_append happlied (.cons hrow .nil)
  · show ((b.put { a with balance }).accounts.map (·.id)).Nodup
    rw [Book.put_ids]
    exact hc.ids

/-- An account with no applied row comes to what the book makes of it. -/
theorem reports_decision {d : Decimal} (hp : ¬m.amount ≤ Decimal.zero) (hc : Corresponds tables b)
    (hx : m.Exact b) (hl : b.lock m.account = .ok a) (hr : b.row? m.operation m.account = none)
    (hd : d.value = a.balance.value) :
    Reports site.asking (do
        if AccountStatus.ofId? a.status.id ≠ some .active then
          return Verdict.refused (.accountInactive m.account)
        if m.direction = .debit ∧ d < m.amount then
          return Verdict.refused (.insufficientFunds m.account d m.amount)
        let _ ← execute (.addBalance m.delta m.account)
        if (← execute (.insertApplied m.operation m.account m.delta)) = 0 then
          return Verdict.outrun
        return Verdict.written)
      (m.Concludes b start) (fun _ _ => False) (fun _ => False) ⟨start, .pending tables⟩ := by
  have haid : a.id = m.account := Book.lock_id hl
  have hless : d < m.amount ↔ a.balance < m.amount := by
    rw [Decimal.lt_iff_value, Decimal.lt_iff_value, hd]
  rw [AccountStatus.ofId?_id]
  by_cases hactive : a.status = .active
  · rw [if_neg (by simp [hactive])]
    by_cases hfunds : m.direction = .debit ∧ d < m.amount
    · rw [if_pos hfunds]
      rw [hless] at hfunds
      have he : Book.accept m.direction a m.amount =
          .error (.insufficientFunds m.account a.balance m.amount) := by
        simp [Book.accept, hactive, hfunds, haid]
      exact ⟨rfl, _, onBook_refused hp hl hr he, .funds hd.symm rfl⟩
    · rw [if_neg hfunds]
      rw [hless] at hfunds
      have he : Book.accept m.direction a m.amount = .ok () := by
        simp [Book.accept, hactive, hfunds]
      obtain ⟨balance, hadmits, hv⟩ := hx.admits hp hl hr he
      exact reports_writes site hc hadmits hv
  · rw [if_pos (by simpa using hactive)]
    have he : Book.accept m.direction a m.amount = .error (.accountInactive m.account) := by
      simp [Book.accept, hactive, haid]
    exact ⟨rfl, _, onBook_refused hp hl hr he, .same _⟩

/-- The part under the lock comes to what the book comes to. -/
theorem underLock_concludes (hp : ¬m.amount ≤ Decimal.zero) (hc : Corresponds tables b)
    (hx : m.Exact b) :
    Reports site.asking (underLock lockTimeoutMs m.direction m.account m.amount m.operation)
      (m.Concludes b start) (fun _ _ => False) (fun _ => False) ⟨start, .pending tables⟩ := by
  unfold underLock
  refine of_bind.2 (Site.reports_execute (s := .setLockTimeout lockTimeoutMs) rfl rfl rfl ?_)
  refine of_bind.2 (Site.reports_fetchOptional (s := .lockAccount m.account) rfl rfl hc.accounts
    (p := (·.id == m.account))
    (S := fun row a => ∃ n : Numeric, n.value = a.balance.value ∧ row = seenRow n a.status)
    ?_ ?_ ?_ ?_)
  · rintro _ x ⟨n, createdAt, rfl, -, -⟩
    exact accountRow_meets rfl
  · rintro _ x ⟨n, createdAt, rfl, hn, -⟩
    exact ⟨n, hn, accountRow_shown⟩
  · intro hnone
    have ha : b.account? m.account = none := List.find?_eq_none.mpr (by simpa using hnone)
    exact ⟨rfl, _, onBook_unknown hp ha, .same _⟩
  · rintro _ a ⟨n, hn, rfl⟩ ham hid
    have ha : b.account? m.account = some a := by
      rw [← eq_of_beq hid]
      exact Query.find?_key hc.ids ham
    have hl : b.lock m.account = .ok a := by
      simp [Book.lock, ha, hc.free]
    obtain ⟨d, hd, hdv⟩ := Numeric.toDecimal_exact ⟨a.balance, hn.symm⟩
    refine of_bind.2 ((reports_loggedColumn_ok (read_balance hd)).2 ?_)
    refine of_bind.2 ((reports_loggedColumn_ok read_status).2 ?_)
    refine of_bind.2 (Site.reports_fetchOptional (s := .findApplied m.operation m.account) rfl rfl
      hc.applied (p := fun r => r.operation == m.operation && r.account == m.account)
      (S := fun row _ => row = [(⟨"?column?", .int4⟩, .int 1)]) ?_ ?_ ?_ ?_)
    · rintro _ r ⟨amount, appliedAt, rfl, -⟩
      exact appliedRow_meets rfl
    · exact fun _ _ _ => rfl
    · intro hnone
      have hr : b.row? m.operation m.account = none :=
        List.find?_eq_none.mpr fun r hr => by simpa using hnone r hr
      exact reports_decision site hp hc hx hl hr (hdv.trans hn)
    · rintro _ r rfl hr hpr
      have hknown : (b.row? m.operation m.account).isSome :=
        List.find?_isSome.mpr ⟨r, hr, hpr⟩
      exact of_bind.2 ((reports_scalar_ok rfl).2 ⟨rfl, onBook_known hp hl hknown⟩)

/-- The session comes to what the book comes to, and leaves no transaction open. -/
theorem session_concludes (lockTimeoutMs : Nat) (hc : Corresponds tables b) (hx : m.Exact b) :
    Reports site.asking (m.session lockTimeoutMs)
      (fun outcome server => ∃ b', m.onBook b = (.value (.ok outcome), b') ∧
        server.work = .none ∧ Corresponds server.tables b')
      (fun e server => server = ⟨tables, .none⟩ ∧
        ∃ e', m.onBook b = (.value (.error e'), b) ∧ e'.Alike e)
      (fun _ => False) ⟨tables, .none⟩ := by
  unfold session mutate
  split
  next hp =>
    have hb : m.onBook b = (.value (.error .invalidAmount), b) := by
      simp [onBook, Book.mutate, hp]
    exact ⟨rfl, _, hb, .same _⟩
  next hp =>
    refine of_bind.2 (of_bind.2 (of_attempt.2 ?_))
    refine of_bind.2 (of_attempt.2 ((underLock_concludes site hp hc hx).mono ?_ ?_ ?_))
    · intro verdict server hv
      cases verdict with
      | refused e =>
        obtain ⟨hstart, e', hb, he⟩ := hv
        have hback : server.rolledBack = ⟨tables, .none⟩ := congrArg (Server.mk · .none) hstart
        exact ⟨hback, e', hb, he⟩
      | known | outrun =>
        obtain ⟨hstart, hb⟩ := hv
        have hback : server.rolledBack = ⟨tables, .none⟩ := congrArg (Server.mk · .none) hstart
        exact ⟨b, hb, rfl, congrArg Server.tables hback ▸ hc⟩
      | written =>
        obtain ⟨tables', b', rfl, hb, hc'⟩ := hv
        exact ⟨b', hb, rfl, hc'⟩
    · exact fun _ _ h => h.elim
    · exact fun _ h => h

end

end Mutation

abbrev AnsweredAlike :
    Flow.Outcome (Except LedgerError MutationOutcome) →
      Flow.Outcome (Except LedgerError MutationOutcome) → Prop :=
  Flow.Outcome.Alike (· = ·) LedgerError.Alike

def Mirrors (b : Book) (server : Server) : Prop :=
  server.work = .none ∧ Corresponds server.tables b

/-- The mutations, each at a site of its own, get the same answers from the book and from the server,
and leave the same contents in both. -/
def LedgersAgree (lockTimeoutMs : Nat) (ms : List (Site × Mutation)) (b : Book) (server : Server) :
    Prop :=
  Agree (fun _ => AnsweredAlike) Mirrors (fun (c : Site × Mutation) b => c.2.onBook b)
    (fun c server => c.1.serve (c.2.session lockTimeoutMs).run server) ms b server

def SumsExact (ms : List (Site × Mutation)) (b : Book) : Prop :=
  Along (fun (c : Site × Mutation) b => c.2.Exact b) (fun c b => c.2.onBook b) ms b

/-- As long as sums are exact, the two ledgers agree from corresponding contents on. -/
theorem ledgers_agree (lockTimeoutMs : Nat) {ms : List (Site × Mutation)} {b : Book}
    {tables : Tables} (hc : Corresponds tables b) (hx : SumsExact ms b) :
    LedgersAgree lockTimeoutMs ms b ⟨tables, .none⟩ := by
  refine Agree.of_step ?_ ⟨rfl, hc⟩ hx
  rintro ⟨site, m⟩ b ⟨tables, work⟩ ⟨rfl, hc⟩ hx
  refine site.serve_of_reports
    (fun outcome server => AnsweredAlike (m.onBook b).1 outcome ∧ Mirrors (m.onBook b).2 server)
    ((Mutation.session_concludes site lockTimeoutMs hc hx).mono ?_ ?_ fun _ h => h)
  · rintro outcome server ⟨b', hb, hidle, hc'⟩
    rw [hb]
    exact ⟨.value rfl, hidle, hc'⟩
  · rintro e server ⟨rfl, e', hb, he⟩
    rw [hb]
    exact ⟨.error he, rfl, hc⟩

def bookOf (balance : Decimal) : Book := { accounts := [⟨1, 1, .usd, balance, .active⟩] }

def tablesOf (balance : Decimal) : Tables
  | .accounts => [accountRow ⟨1, 1, .usd, balance, .active⟩ (.ofDecimal balance) 0]
  | .applied | .transactions => []

theorem tablesOf_corresponds {balance : Decimal} (h : Decimal.zero ≤ balance) :
    Corresponds (tablesOf balance) (bookOf balance) where
  accounts := .cons ⟨_, _, rfl, Numeric.value_ofDecimal _, h⟩ .nil
  applied := .nil
  ids := by simp [bookOf]
  free := rfl

def half : Decimal := ⟨5, 1, by decide⟩

def wide : Decimal := ⟨79228162514264337593543950334, 0, by decide⟩

def creditHalf : Mutation := ⟨.credit, 1, half, .forward 1⟩

def debitWide : Mutation := ⟨.debit, 1, wide, .forward 2⟩

def debitHalf : Mutation := ⟨.debit, 1, half, .forward 3⟩

def served (m : Mutation) (server : Server) :
    Flow.Outcome (Except LedgerError MutationOutcome) × Server :=
  (Site.plain 0).serve (m.session 5000).run server

/-- What a book with one account asks of a sum. -/
theorem exact_of_fits {m : Mutation} {b : Book} {a : Account} (ha : b.account? m.account = some a)
    (hf : Decimal.Fits (a.balance.value + m.delta.value)) : m.Exact b := by
  intro account _ hb _ _
  rw [ha] at hb
  cases hb
  exact hf

theorem ledgers_agree_half : LedgersAgree 5000 [(.plain 0, creditHalf), (.plain 1, debitHalf)]
    (bookOf half) ⟨tablesOf half, .none⟩ := by
  have hcredited : (creditHalf.onBook (bookOf half)).2.account? 1 =
      some ⟨1, 1, .usd, ⟨10, 1, by decide⟩, .active⟩ := by decide +kernel
  have hcredit : Decimal.Fits (half.value + creditHalf.delta.value) :=
    ⟨.one, by norm_num [Decimal.value, Decimal.one, half, creditHalf, Mutation.delta, Direction.delta,
      tenTo]⟩
  have hdebit : Decimal.Fits ((⟨10, 1, by decide⟩ : Decimal).value + debitHalf.delta.value) :=
    ⟨half, by norm_num [Decimal.value, half, debitHalf, Mutation.delta, Direction.delta, tenTo]⟩
  exact ledgers_agree 5000 (tablesOf_corresponds (by decide))
    ⟨exact_of_fits rfl hcredit, exact_of_fits hcredited hdebit, trivial⟩

/-- Without exact sums the ledgers come apart: in memory the wide sum is rounded, and half a unit is
missing in the end. -/
theorem ledgers_disagree_wide : Corresponds (tablesOf wide) (bookOf wide) ∧
    ¬LedgersAgree 5000 [(.plain 0, creditHalf), (.plain 0, debitWide), (.plain 0, debitHalf)]
      (bookOf wide) ⟨tablesOf wide, .none⟩ := by
  refine ⟨tablesOf_corresponds (by decide +kernel), fun hagree => ?_⟩
  have hbook : (debitHalf.onBook (debitWide.onBook (creditHalf.onBook (bookOf wide)).2).2).1 =
      .value (.error (.insufficientFunds 1 .zero half)) := by decide +kernel
  have hserver : (served debitHalf (served debitWide
      (served creditHalf ⟨tablesOf wide, .none⟩).2).2).1 = .value (.ok .applied) := by
    decide +kernel
  have hlast : AnsweredAlike
      (debitHalf.onBook (debitWide.onBook (creditHalf.onBook (bookOf wide)).2).2).1
      (served debitHalf (served debitWide (served creditHalf ⟨tablesOf wide, .none⟩).2).2).1 :=
    hagree.2.2.1
  rw [hbook, hserver] at hlast
  cases hlast

end Ledger
end Sql
end Settlement
