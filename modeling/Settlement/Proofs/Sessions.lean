import Settlement.Proofs.Transcripts
import Settlement.Sql.Session

/-!
How the parts that sessions are made of end, whoever answers: the reading of values from rows. And
what they ask: nothing but their statements.
-/

namespace Settlement
namespace Sql
namespace Session

open Reports Fallible

variable {σ ε α : Type} {asking : Asking Request.Answer σ} {err : ε → σ → Prop} {broke : σ → Prop}
  {s : σ} {row : Row} {name : String} {r : Reader α}

theorem reports_loggedColumn_ok {ok : Option α → σ → Prop} {a : α} (hr : row.byName name r = .ok a) :
    Reports asking (loggedColumn row name r) ok err broke s ↔ ok (some a) s := by
  unfold loggedColumn settle
  rw [hr]
  exact Iff.rfl

theorem reports_scalar_ok {ok : α → σ → Prop} {err : SqlError → σ → Prop} {a : α}
    (hr : row.first r = .ok a) : Reports asking (scalar row r) ok err broke s ↔ ok a s := by
  unfold scalar settle
  rw [hr]
  exact Iff.rfl

section

variable {among : Request → Prop}

theorem asks_send {s : Statement} (hs : among (.statement s)) : AsksOnly among (send s) := by
  refine ⟨hs, fun result => ?_⟩
  cases result <;> exact trivial

theorem asks_fetchOptional {s : Statement} (hs : among (.statement s)) :
    AsksOnly among (fetchOptional s) :=
  ((asks_send hs).map Result.rows).bind fun _ => trivial

theorem asks_fetchOne {s : Statement} (hs : among (.statement s)) : AsksOnly among (fetchOne s) := by
  refine (asks_fetchOptional hs).bind fun row => ?_
  cases row <;> exact trivial

theorem asks_settle {read : Except SqlError α} :
    AsksOnly among (settle read : Session ε (Except SqlError α)) := by
  unfold settle
  split
  · split <;> exact trivial
  · exact trivial

theorem asks_scalar {row : Row} {r : Reader α} : AsksOnly among (scalar row r) := by
  refine asks_settle.bind fun read => ?_
  cases read <;> exact trivial

theorem asks_column {row : Row} {name : String} {r : Reader α} :
    AsksOnly among (column row name r : Session ε α) := by
  unfold column
  split <;> exact trivial

theorem asks_instantColumn {row : Row} {name : String} :
    AsksOnly among (instantColumn row name : Session ε Instant) := by
  refine asks_column.bind fun t => ?_
  split <;> exact trivial

end

end Session
end Sql
end Settlement
