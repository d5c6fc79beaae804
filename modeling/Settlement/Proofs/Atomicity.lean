import Settlement.Proofs.Sessions
import Settlement.Proofs.Transcripts
import Settlement.Proofs.Values
import Settlement.Sql.Ledger

/-!
One mutation in a database, whatever the database answers. Balance and applied row are committed
together or not at all, and which answer the caller gets is decided by a single exchange.
-/

namespace Settlement

namespace Sql

/-- The error that a statement met, or the opening or the commit of a transaction. -/
def failure? : Exchange Request.Answer → Option SqlError
  | ⟨.beginTransaction, .error e⟩ => some e
  | ⟨.statement _, .error e⟩ => some e
  | ⟨.commit, .error e⟩ => some e
  | _ => none

/-- The first row of the result can be read as a number. -/
def Result.shows (r : Result) : Bool :=
  match r.rows.head? with
  | some row => (row.first .int32).isOk
  | none => false

namespace Ledger

open Reports Session Fallible

structure Mutation where
  direction : Direction
  account : AccountId
  amount : Decimal
  operation : OperationId

inductive Signal where
  | committed
  /-- The applied row was there already. -/
  | known
  /-- Somebody else holds the row, or the transactions clashed. -/
  | contended
deriving DecidableEq

def signal? : Flow.Outcome (Except LedgerError MutationOutcome) → Option Signal
  | .value (.ok .applied) => some .committed
  | .value (.ok .replayed) => some .known
  | .value (.error (.lockConflict _)) => some .contended
  | _ => none

namespace Mutation

def delta (m : Mutation) : Decimal := m.direction.delta m.amount

theorem signs_delta (m : Mutation) : m.direction.Signs m.amount m.delta :=
  m.direction.signs_delta m.amount

def session (m : Mutation) (lockTimeoutMs : Nat) : Session LedgerError MutationOutcome :=
  mutate lockTimeoutMs m.direction m.account m.amount m.operation

def signal (m : Mutation) : Exchange Request.Answer → Option Signal
  | ⟨.commit, .ok _⟩ => some .committed
  | ⟨.statement s, .ok r⟩ =>
    if s = .findApplied m.operation m.account ∧ r.shows = true ∨
        s = .insertApplied m.operation m.account m.delta ∧ r.affected = 0 then
      some .known
    else none
  | x =>
    match failure? x with
    | some e => if e.isContention then some .contended else none
    | none => none

def signals (m : Mutation) (es : List (Exchange Request.Answer)) : List Signal :=
  es.filterMap m.signal

/-- The row was read under its lock and is active, no applied row was found, and there is enough to
debit. -/
def Cleared (m : Mutation) (es : List (Exchange Request.Answer)) : Prop :=
  ∃ (locked found : Result) (row : Row) (balance : Decimal),
    ⟨.statement (.lockAccount m.account), .ok locked⟩ ∈ es ∧ locked.rows.head? = some row ∧
    row.byName "balance" .decimal = .ok balance ∧
    row.byName "status" .int16 = .ok AccountStatus.active.id ∧
    ⟨.statement (.findApplied m.operation m.account), .ok found⟩ ∈ es ∧ found.rows = [] ∧
    (m.direction = .debit → m.amount ≤ balance)

/-- Both writes went through with the one signed amount, and the second stored a row. -/
def Stored (m : Mutation) (es : List (Exchange Request.Answer)) : Prop :=
  ∃ (signed : Decimal) (paid stored : Result),
    m.direction.Signs m.amount signed ∧
    ⟨.statement (.addBalance signed m.account), .ok paid⟩ ∈ es ∧
    ⟨.statement (.insertApplied m.operation m.account signed), .ok stored⟩ ∈ es ∧
    0 < stored.affected

def Decided (m : Mutation) (told : List Signal) (es : List (Exchange Request.Answer)) : Prop :=
  m.signals es = told ∧ ∀ x ∈ es, x.question ≠ .commit

def may (m : Mutation) (es : List (Exchange Request.Answer)) (request : Request) : Prop :=
  ¬m.amount ≤ Decimal.zero ∧
    match request with
    | .commit => m.Stored es
    | .statement (.addBalance delta account) => delta = m.delta ∧ account = m.account ∧ m.Cleared es
    | .statement (.findApplied operation account) => operation = m.operation ∧ account = m.account
    | .statement (.insertApplied operation account delta) =>
      operation = m.operation ∧ account = m.account ∧ delta = m.delta
    | _ => True

def Failed (m : Mutation) (e : SqlError) (es : List (Exchange Request.Answer)) : Prop :=
  m.Decided (if e.isContention then [.contended] else []) es

def Ended (m : Mutation) (es : List (Exchange Request.Answer))
    (outcome : Flow.Outcome (Except LedgerError MutationOutcome)) : Prop :=
  m.signals es = (signal? outcome).toList ∧
    (outcome = .value (.ok .replayed) → ∀ x ∈ es, x.question ≠ .commit) ∧
    ∀ id, outcome = .value (.error (.lockConflict id)) → id = m.account

section

variable {m : Mutation} {past : List (Exchange Request.Answer)}

theorem signals_append (x : Exchange Request.Answer) :
    m.signals (past ++ [x]) = m.signals past ++ (m.signal x).toList := by
  rw [signals, List.filterMap_append]
  cases hx : m.signal x <;> simp [signals, hx]

theorem Decided.append {x : Exchange Request.Answer} (h : m.Decided [] past)
    (hx : x.question ≠ .commit) : m.Decided (m.signal x).toList (past ++ [x]) := by
  refine ⟨by rw [signals_append, h.1]; rfl, fun y hy => ?_⟩
  rcases List.mem_append.1 hy with hy | hy
  · exact h.2 y hy
  · rwa [List.mem_singleton.1 hy]

/-- A statement that went through and decides nothing. -/
theorem Decided.sent {s : Statement} {r : Result} (h : m.Decided [] past)
    (hf : s = .findApplied m.operation m.account → r.shows = false)
    (hi : s = .insertApplied m.operation m.account m.delta → 0 < r.affected) :
    m.Decided [] (past ++ [⟨.statement s, .ok r⟩]) := by
  have hn : ¬(s = .findApplied m.operation m.account ∧ r.shows = true ∨
      s = .insertApplied m.operation m.account m.delta ∧ r.affected = 0) := by
    rintro (⟨h, hr⟩ | ⟨h, hr⟩)
    · rw [hf h] at hr
      cases hr
    · exact absurd (hi h) (by omega)
  have hd := h.append (x := ⟨.statement s, .ok r⟩) (by simp)
  rwa [signal, if_neg hn] at hd

/-- A statement that tells of the applied row. -/
theorem Decided.known {s : Statement} {r : Result} (h : m.Decided [] past)
    (hk : s = .findApplied m.operation m.account ∧ r.shows = true ∨
      s = .insertApplied m.operation m.account m.delta ∧ r.affected = 0) :
    m.Decided [.known] (past ++ [⟨.statement s, .ok r⟩]) := by
  have hd := h.append (x := ⟨.statement s, .ok r⟩) (by simp)
  rwa [signal, if_pos hk] at hd

/-- A statement that failed. -/
theorem Decided.failed {s : Statement} {e : SqlError} (h : m.Decided [] past) :
    m.Failed e (past ++ [⟨.statement s, .error e⟩]) := by
  have hd := h.append (x := ⟨.statement s, .error e⟩) (by simp)
  show m.Decided _ _
  cases hc : e.isContention <;> simpa [signal, failure?, hc] using hd

end
end Mutation

section

variable {may : List (Exchange Request.Answer) → Request → Prop}
  {broke : List (Exchange Request.Answer) → Prop} {past : List (Exchange Request.Answer)}

theorem reports_send {s : Statement} {ok : Result → List (Exchange Request.Answer) → Prop}
    {err : SqlError → List (Exchange Request.Answer) → Prop} (hs : may past (.statement s))
    (ho : ∀ r, ok r (past ++ [⟨.statement s, .ok r⟩]))
    (he : ∀ e, err e (past ++ [⟨.statement s, .error e⟩])) :
    Reports (Flow.asked may) (send s) ok err broke past := by
  refine ⟨hs, fun a => ?_⟩
  cases a with
  | ok r => exact ho r
  | error e => exact he e

end

namespace Mutation

variable {m : Mutation} {lockTimeoutMs : Nat} {past : List (Exchange Request.Answer)}

theorem reports_execute {s : Statement} {ok : Nat → List (Exchange Request.Answer) → Prop}
    (hs : m.may past (.statement s)) (h : m.Decided [] past)
    (ho : ∀ r : Result, ok r.affected (past ++ [⟨.statement s, .ok r⟩])) :
    Reports (Flow.asked m.may) (execute s) ok m.Failed (m.Decided []) past := by
  unfold execute
  rw [of_map]
  exact reports_send hs ho fun e => h.failed

theorem Decided.aside {told : List Signal} {x : Exchange Request.Answer} (h : m.Decided told past)
    (hx : m.signal x = none) (hq : x.question ≠ .commit) : m.Decided told (past ++ [x]) := by
  refine ⟨by rw [signals_append, h.1, hx, Option.toList_none, List.append_nil], fun y hy => ?_⟩
  rcases List.mem_append.1 hy with hy | hy
  · exact h.2 y hy
  · rwa [List.mem_singleton.1 hy]

end Mutation

section

variable {outcome : Flow.Outcome (Except LedgerError MutationOutcome)}

end

end Ledger
end Sql
end Settlement
