import Settlement.Proofs.Table
import Settlement.Proofs.Ways

/-!
How often a record is taken up. Main statements: over the calls of a store and on every way of a program,
the attempts of a record do not fall, and they grow by no more than the number of calls that take it up.
-/

namespace Settlement
namespace TransactionTable

/-- A record that is not stored was never taken up. -/
def attempts (t : TransactionTable) (id : TransactionId) : Int := ((t.row? id).map (·.attempts)).getD 0

/-- From the one table to the other, the attempts of the record grow by a number at most. -/
structure Uptakes (t : TransactionTable) (id : TransactionId) (n : Nat) (t' : TransactionTable) :
    Prop where
  kept : t.attempts id ≤ t'.attempts id
  bounded : t'.attempts id ≤ t.attempts id + n

section

variable {t t' t'' : TransactionTable} {id : TransactionId} {m n : Nat}

theorem attempts_of_row? {r : TransactionRecord} (h : t.row? id = some r) :
    t.attempts id = r.attempts := by
  simp [attempts, h]

theorem Uptakes.of_eq (h : t'.attempts id = t.attempts id) : t.Uptakes id n t' := by
  constructor <;> omega

theorem Uptakes.refl (t : TransactionTable) (id : TransactionId) (n : Nat) : t.Uptakes id n t :=
  .of_eq rfl

theorem Uptakes.trans (h : t.Uptakes id m t') (h' : t'.Uptakes id n t'') :
    t.Uptakes id (m + n) t'' := by
  obtain ⟨hkept, hbounded⟩ := h
  obtain ⟨hkept', hbounded'⟩ := h'
  constructor <;> omega

/-- A write that takes the record up counts one attempt, and no other write counts any. -/
theorem Written.uptakes {other : TransactionId} {w : Write} {done : Bool}
    (h : t.Written other w done t') (hn : w = .take → other = id → n = 1) : t.Uptakes id n t' := by
  cases h with
  | refused => exact .refl t id n
  | written now row allowed rows =>
    have hrow := row?_map rows id
    cases hr : t.row? id with
    | none => exact .of_eq (by simp [attempts, hrow, hr])
    | some r =>
      have hi : r.id = id := (mem_of_row? hr).2
      rw [hr, Option.map_some] at hrow
      by_cases he : r.id = other
      · rw [if_pos he] at hrow
        cases w with
        | take =>
          have hone : n = 1 := hn rfl (he.symm.trans hi)
          constructor <;>
            simp only [attempts_of_row? hr, attempts_of_row? hrow, Write.apply] <;> omega
        | advance | close =>
          exact .of_eq (by rw [attempts_of_row? hr, attempts_of_row? hrow]; rfl)
      · rw [if_neg he] at hrow
        exact .of_eq (by rw [attempts_of_row? hr, attempts_of_row? hrow])

theorem insert_attempts (t : TransactionTable) (new : NewTransaction) (now : Instant)
    (id : TransactionId) : (t.insert new now).2.attempts id = t.attempts id := by
  unfold insert
  split
  · rfl
  · unfold attempts
    rw [row?_append rfl]
    cases t.row? id with
    | some r => rfl
    | none =>
      rw [Option.none_or]
      split <;> rfl

theorem answer_uptakes (t : TransactionTable) (now : Instant) (call : StoreCall)
    (id : TransactionId) :
    t.Uptakes id (if call = .markProcessing id then 1 else 0) (answer now call t).2 := by
  cases call with
  | insert new => exact .of_eq (t.insert_attempts new now id)
  | markProcessing other =>
    exact (t.update_written other .take now).uptakes fun _ he => by rw [he, if_pos rfl]
  | advanceStep other step => exact (t.update_written other (.advance step) now).uptakes nofun
  | finalize other fin => exact (t.update_written other (.close fin) now).uptakes nofun
  | get | getByKey | findStuck | history => exact .refl t id _
  | sumSpending user since => exact .of_eq (by rw [answer_sumSpending])

end
end TransactionTable

/-- Where a call of the store counts an attempt only if it takes the record up, so does a way of a
program, and at no visit the record counts less than before it or more than after it. -/
theorem Flow.Goes.uptakes {σ α : Type} {W : Surroundings Call.Answer σ}
    {x : Flow Call Call.Answer α} {s s' : σ} {vs : List (Visit Call.Answer σ)} {outcome : Outcome α}
    (h : x.Goes W s vs outcome s') (table : σ → TransactionTable) (id : TransactionId)
    (hW : ∀ call s a s', W call s a s' →
      (table s).Uptakes id (if call = .store (.markProcessing id) then 1 else 0) (table s')) :
    (table s).Uptakes id (vs.countP fun v => v.question = .store (.markProcessing id)) (table s') ∧
      ∀ v ∈ vs, (table s).attempts id ≤ (table v.state).attempts id ∧
        (table v.state).attempts id ≤ (table s').attempts id := by
  induction h with
  | done | panic => exact ⟨.refl _ _ _, by simp⟩
  | note _ ih => exact ih
  | @ask q next a s s₁ s' vs outcome met _ ih =>
    have hfirst := hW _ _ _ _ met
    obtain ⟨hrest, hvisits⟩ := ih
    have hall := hfirst.trans hrest
    rw [Nat.add_comm] at hall
    refine ⟨by simpa [List.countP_cons] using hall, List.forall_mem_cons.mpr ⟨?_, fun v hv => ?_⟩⟩
    · exact ⟨Int.le_refl _, hall.kept⟩
    · exact ⟨Int.le_trans hfirst.kept (hvisits v hv).1, (hvisits v hv).2⟩

end Settlement
