import Settlement.Proofs.Machine

/-!
Open records, wherever their drivers are: what became of a refund is stored with the last write, and the
last write ends the record.
-/

namespace Settlement

namespace TransactionRecord

/-- Only a record that has ended says what became of a refund. -/
def Reserved (r : TransactionRecord) : Prop := r.status.isTerminal = false → r.compensation = .none

structure Pending (r : TransactionRecord) : Prop where
  live : r.status.isTerminal = false
  formed : r.payload.WellFormed
  uncompensated : r.compensation = .none

theorem Reserved.write {r : TransactionRecord} {w : Write} (h : r.Reserved) (ha : w.allows r)
    (hw : ∀ fin, w = .close fin → fin.status.isTerminal = true) (now : Instant) :
    (w.apply now r).Reserved := by
  have hn := h (Write.open_of_allows ha)
  cases w with
  | take | advance => exact fun _ => hn
  | close fin =>
    intro ho
    rw [Write.apply, hw fin rfl] at ho
    cases ho

end TransactionRecord

def Stage.Final : Stage → Prop
  | settling _ status _ => status.isTerminal = true
  | idle _ | taken _ | moving .. | recording .. | ended => True

section

variable {σ σ' : Stores} {st st' : Stage} {call : Call} {a : call.Answer} {reply : Reply} {eff : Effect}
  {stages : Nat → Stage} {past : List Event}

theorem Turn.final (ht : Turn st call a st') : st'.Final := by
  cases ht with
  | look | insert | take | pass | unread | contended | close => trivial
  | load =>
    unfold Stage.begins
    split <;> trivial
  | reload =>
    unfold Stage.resumes
    split <;> trivial
  | @moved _ leg => cases leg <;> trivial
  | @refused leg => cases leg <;> trivial
  | @recorded _ _ leg => cases leg <;> trivial
  | unrecorded =>
    unfold Stage.failed
    split <;> trivial

theorem Stores.Wrote.reserved {id : TransactionId} {w : Write} {done : Except ServiceError Bool}
    (h : σ.Wrote id w reply done eff σ') (hs : σ.table.Sound) (hr : ∀ r ∈ σ.table.rows, r.Reserved)
    (hw : ∀ fin, w = .close fin → fin.status.isTerminal = true) : ∀ r ∈ σ'.table.rows, r.Reserved := by
  cases h with
  | unwritten => exact hr
  | written table =>
    cases table with
    | written now row allowed rows =>
      rw [rows]
      refine List.forall_mem_map.mpr fun r hmem => ?_
      split
      next hid =>
        have hrow := hs.row?_of_mem hmem
        rw [hid] at hrow
        rw [row, Option.some.injEq] at hrow
        rw [← hrow] at hmem ⊢
        exact (hr _ hmem).write allowed hw now
      next => exact hr r hmem

theorem Turn.reserved (ht : Turn st call a st') (hs : σ.table.Sound) (hf : st.Final)
    (hr : ∀ r ∈ σ.table.rows, r.Reserved) (hm : σ.meet call reply = some (.value a, eff, σ')) :
    ∀ r ∈ σ'.table.rows, r.Reserved := by
  cases ht with
  | look hc =>
    obtain ⟨_, rfl⟩ := Stores.meet_reads hc hm
    exact hr
  | load | unread | reload =>
    obtain ⟨_, rfl⟩ := Stores.meet_reads rfl hm
    exact hr
  | insert =>
    cases Stores.meet_insert hs hm with
    | unstored => exact hr
    | inserted table =>
      cases table with
      | inserted now row free rows =>
        rw [rows]
        refine List.forall_mem_append.mpr ⟨hr, List.forall_mem_singleton.mpr ?_⟩
        rw [row]
        exact fun _ => rfl
  | take | pass => exact (Stores.meet_markProcessing hm).reserved hs hr nofun
  | moved | contended | refused =>
    cases Stores.meet_mutate hm with
    | unapplied => exact hr
    | applied _ _ table => exact table ▸ hr
  | recorded | unrecorded => exact (Stores.meet_advanceStep hm).reserved hs hr nofun
  | close =>
    refine (Stores.meet_finalize hm).reserved hs hr ?_
    rintro _ ⟨⟩
    exact hf

theorem Staged.reserved (h : Staged stages σ past) :
    (∀ r ∈ σ.table.rows, r.Reserved) ∧ ∀ p, (stages p).Final := by
  induction h with
  | empty => exact ⟨by simp, fun _ => trivial⟩
  | turn hs ht hm ih =>
    refine ⟨ht.reserved hs.grounded.1.sound (ih.2 _) ih.1 hm, ?_⟩
    exact (Function.forall_update_iff _ fun _ st => Stage.Final st).mpr ⟨ht.final, fun q _ => ih.2 q⟩
  | broke _ ih | stop _ ih =>
    refine ⟨ih.1, ?_⟩
    exact (Function.forall_update_iff _ fun _ st => Stage.Final st).mpr ⟨trivial, fun q _ => ih.2 q⟩
  | aside _ table _ ih => exact ⟨table ▸ ih.1, ih.2⟩

end

/-- Whatever drivers did side by side, whichever calls failed and whoever stopped in between: every open
record is one that a drive may go on with. -/
theorem Reachable.pending {s : Service} {m : Machine} (h : Reachable s m) {r : TransactionRecord}
    (hr : r ∈ m.stores.table.rows) (ho : r.status.isTerminal = false) :
    m.stores.table.row? r.id = some r ∧ r.Pending := by
  obtain ⟨stages, hm⟩ := h.matched
  have hg := hm.staged.grounded.1
  exact ⟨hg.sound.row?_of_mem hr, ho, hg.wellFormed r hr, hm.staged.reserved.1 r hr ho⟩

end Settlement
