import Settlement.Proofs.Backing
import Settlement.Proofs.Turns

/-!
What a failed transfer leaves on the ledger, where the drivers of a record take turns and every answer
arrives. A transfer that failed without a refund left nothing there, unless one of its legs was
applied and the step of that leg never stored.
-/

namespace Settlement

namespace TransactionRecord

/-- A leg is applied that the record has not come to. -/
def Lags (r : TransactionRecord) (rows : List AppliedRow) : Prop :=
  ∃ (leg : Leg) (step : TransactionStep) (row : AppliedRow),
    leg.step? = some step ∧ leg.row? r = some row ∧ row ∈ rows ∧ r.step < step

/-- No leg is applied, as far as the record can know. -/
def Clean (r : TransactionRecord) (rows : List AppliedRow) : Prop := rows = [] ∨ r.Lags rows

structure Discloses (r : TransactionRecord) (rows : List AppliedRow) : Prop where
  unstepped : r.step = .none → r.Clean rows
  failed : r.status = .failed → r.compensation = .none → r.Clean rows

theorem Clean.same {r r' : TransactionRecord} {rows : List AppliedRow} (h : r.Clean rows)
    (hs : r.Same r') (he : r'.step = r.step) : r'.Clean rows := by
  rcases h with hn | ⟨leg, step, row, hl, hr, hm, hlt⟩
  · exact .inl hn
  · exact .inr ⟨leg, step, row, hl, Leg.row?_same hs leg ▸ hr, hm, he ▸ hlt⟩

/-- An open record is clean if it has no step. -/
theorem Discloses.of_open {r : TransactionRecord} {rows : List AppliedRow}
    (ho : r.status.isTerminal = false) (hc : r.step = .none → r.Clean rows) : r.Discloses rows := by
  refine ⟨hc, fun hf => ?_⟩
  rw [hf] at ho
  cases ho

end TransactionRecord

def Stage.Discloses (r : TransactionRecord) (rows : List AppliedRow) : Stage → Prop
  | idle (some _) => r.step ≠ .creditDone
  | recording leg _ => ∃ step row, leg.step? = some step ∧ leg.row? r = some row ∧ row ∈ rows
  | settling _ .failed .none => r.Clean rows
  | _ => True

section

variable {r r' : TransactionRecord} {rows rows' : List AppliedRow} {st st' : Stage} {e : Event}
  {leg : Leg} {step : TransactionStep} {row : AppliedRow} {tx : TransactionRecord}

theorem Leg.Due.uncredited (h : leg.Due r) (ht : leg.type = .transfer) : r.step ≠ .creditDone := by
  intro hc
  cases leg with
  | debit | credit | refund => cases h.symm.trans hc
  | deposit | withdraw => cases ht

theorem Leg.Due.lt (h : leg.Due r) (hs : leg.step? = some step) : r.step < step := by
  have hd : r.step = if leg = .debit then .none else .debitDone := by
    cases leg with
    | debit | credit | refund => exact h
    | deposit | withdraw => cases hs
  rw [hd]
  cases leg with
  | debit | credit =>
    cases hs
    decide
  | refund | deposit | withdraw => cases hs

/-- The first leg of a transfer has a step to store. -/
theorem Leg.Due.first (h : leg.Due r) (ht : leg.type = .transfer) (hn : r.step = .none) :
    leg.step? = some .debitDone := by
  cases leg with
  | debit => rfl
  | credit | refund => cases h.symm.trans hn
  | deposit | withdraw => cases ht

theorem Stage.begins_discloses : (begins r).Discloses r rows := by
  unfold begins
  split <;> trivial

theorem Stage.resumes_discloses (ht : r.type = .transfer) (h : r.Discloses rows)
    (hn : r.step ≠ .creditDone) : (resumes r).Discloses r rows := by
  unfold resumes
  split
  next => trivial
  next hd =>
    refine h.unstepped ?_
    cases hs : r.step with
    | none => rfl
    | debitDone => exact absurd ⟨ht, hs⟩ hd
    | creditDone => exact absurd hs hn

theorem Stage.moved_discloses (hr : leg.row? r = some row) (hm : row ∈ rows) :
    (moved leg tx).Discloses r rows := by
  cases leg with
  | debit => exact ⟨_, row, rfl, hr, hm⟩
  | credit => exact ⟨_, row, rfl, hr, hm⟩
  | refund | deposit | withdraw => trivial

theorem Stage.refused_discloses (h : r.Discloses rows) (ht : leg.type = .transfer)
    (hd : leg.Due r) : (refused leg tx).Discloses r rows := by
  cases leg with
  | debit => exact h.unstepped hd
  | credit | refund => trivial
  | deposit | withdraw => cases ht

theorem Stage.recorded_discloses : (recorded leg tx).Discloses r rows := by
  cases leg <;> trivial

theorem Stage.failed_discloses (hn : r.step ≠ .creditDone) (hl : r.Lags rows)
    (error : ServiceError) : (failed tx (.plain error)).Discloses r rows := by
  unfold failed
  split
  · exact hn
  · exact .inr hl

/-- What a deed of a driver whose turn it is leaves undisclosed, its stage knows of. -/
theorem Deed.discloses (h : Deed r rows st e st' r' rows') (ht : r.type = .transfer)
    (hi : r.Discloses rows) (hk : st.about = some r.id → st.Agrees r ∧ st.Discloses r rows) :
    r'.Discloses rows' ∧ st'.Discloses r' rows' := by
  have hsame := h.keeps
  cases h with
  | pass | unread => exact ⟨hi, trivial⟩
  | unclosed => exact ⟨hi, trivial⟩
  | take now =>
    exact ⟨.of_open rfl fun hn => (hi.unstepped hn).same hsame rfl, trivial⟩
  | load => exact ⟨hi, Stage.begins_discloses⟩
  | reload _ same =>
    exact ⟨hi, Stage.resumes_discloses ht hi (hk (congrArg some same.id)).2⟩
  | @applied _ leg tx row same type hr =>
    obtain ⟨⟨ho, hd⟩, _⟩ := hk (congrArg some same.id)
    have hm : row ∈ rows ++ [row] := by simp
    refine ⟨.of_open ho fun hn => ?_, Stage.moved_discloses hr hm⟩
    have hs := hd.first (type.trans ht) hn
    exact .inr ⟨leg, _, row, hs, hr, hm, hd.lt hs⟩
  | replayed same type hr known => exact ⟨hi, Stage.moved_discloses hr known⟩
  | contended same type =>
    obtain ⟨⟨_, hd⟩, _⟩ := hk (congrArg some same.id)
    exact ⟨hi, hd.uncredited (type.trans ht)⟩
  | refused same type =>
    obtain ⟨⟨_, hd⟩, _⟩ := hk (congrArg some same.id)
    exact ⟨hi, Stage.refused_discloses hi (type.trans ht) hd⟩
  | recorded now same type hs effect allowed =>
    have ho := Write.open_of_allows allowed
    refine ⟨.of_open ho fun hn => ?_, Stage.recorded_discloses⟩
    cases hn
    exact absurd (Leg.none_lt_step? hs) (by decide)
  | barred => exact ⟨hi, Stage.recorded_discloses⟩
  | @unrecorded _ leg tx error same type =>
    obtain ⟨⟨_, hd⟩, step, row, hs, hr, hm⟩ := hk (congrArg some same.id)
    refine ⟨hi, Stage.failed_discloses (hd.uncredited (type.trans ht)) ?_ error⟩
    exact ⟨leg, step, row, hs, hr, hm, hd.lt hs⟩
  | @close _ fin now =>
    refine ⟨⟨fun hn => (hi.unstepped hn).same hsame rfl, fun hf hc => ?_⟩, trivial⟩
    have hclean := (hk rfl).2
    rw [show fin.status = .failed from hf, show fin.compensation = .none from hc] at hclean
    exact TransactionRecord.Clean.same hclean hsame rfl

end

theorem transfers_disclose :
    Upheld (fun r rows => r.type = .transfer → r.Discloses rows)
      (fun r rows st => r.type = .transfer → st.Discloses r rows) where
  fresh _ _ _ _ := .of_open rfl fun _ => .inl rfl
  deed _ hi hk hd := by
    have hty := hd.keeps.type_eq
    refine ⟨fun ht => ?_, fun _ ht => ?_⟩
    · have ht := hty.trans ht
      exact (hd.discloses ht (hi ht) fun hab => (hk hab).imp_right fun h => h ht).1
    · have ht := hty.trans ht
      exact (hd.discloses ht (hi ht) fun hab => (hk hab).imp_right fun h => h ht).2

/-- A step that was stored stays. -/
theorem Stores.Change.stored {σ σ' : Stores} {id : TransactionId} {step : TransactionStep}
    (h : σ.Change (.wrote id (.advance step)) σ') :
    ∃ r, σ'.table.row? id = some r ∧ ¬r.step < step := by
  cases h with
  | wrote table =>
    cases table with
    | written now row allowed rows =>
      refine ⟨_, by rw [TransactionTable.row?_map rows, row]; rfl, ?_⟩
      simp only [(TransactionTable.mem_of_row? row).2, if_true]
      exact Int.lt_irrefl _

theorem Staged.stored {stages : Nat → Stage} {σ : Stores} {past : List Event}
    (h : Staged stages σ past) {e : Event} (he : e ∈ past) {id : TransactionId}
    {step : TransactionStep} (hw : e.effect = .wrote id (.advance step)) :
    ∃ r, σ.table.row? id = some r ∧ ¬r.step < step := by
  induction h with
  | empty => cases he
  | turn hs ht hm ih =>
    have hch := (Stores.meet_change hs.grounded.1.sound hm).1
    rcases List.mem_cons.mp he with rfl | he
    · cases hw
      exact hch.stored
    · obtain ⟨r, hr, hn⟩ := ih he
      obtain ⟨r', hr', hb⟩ := hch.onward.records id r hr
      exact ⟨r', hr', fun hl => hn (hb.forward step hl)⟩
  | broke hs ih =>
    rcases List.mem_cons.mp he with rfl | he
    · cases hw
    · exact ih he
  | stop hs ih => exact ih he
  | aside hs table rows ih =>
    rw [table]
    exact ih he

def Machine.Unrecorded (m : Machine) (r : TransactionRecord) : Prop :=
  ∃ (leg : Leg) (step : TransactionStep) (row : AppliedRow),
    leg.step? = some step ∧ leg.row? r = some row ∧
    (∃ e ∈ m.history, e.effect = .applied row) ∧
    ∀ e ∈ m.history, e.effect ≠ .wrote r.id (.advance step)

/-- Where drivers take turns, a failed transfer without a refund has rows exactly if a leg of it was
applied whose step was never stored. One that failed with a refund was debited and refunded, and one
whose refund failed was debited. -/
theorem failed_transfer_leaves {s : Service} {m : Machine} (h : Reachable s m)
    (ht : takesTurns m.history = true) (ha : m.history.all (·.reply.arrives) = true)
    {r : TransactionRecord} (hr : r ∈ m.stores.table.rows) (hty : r.type = .transfer)
    (hf : r.status = .failed) :
    (r.compensation = .none → (m.stores.book.rowsOf r.id ≠ [] ↔ m.Unrecorded r)) ∧
    ∃ source, r.source = some source ∧
      (r.compensation ≠ .none → ⟨.forward r.id, source, -r.amount⟩ ∈ m.stores.book.applied) ∧
      (r.compensation = .succeeded →
        ⟨.compensation r.id, source, r.amount⟩ ∈ m.stores.book.applied) := by
  obtain ⟨stages, hm⟩ := h.matched
  have hg := hm.staged.grounded.1
  have hrow := hg.sound.row?_of_mem hr
  have hb := (hm.staged.backed.1 r hr).ended.legs
  obtain ⟨source, _, hs, _⟩ := (hg.wellFormed r hr).transfer hty
  have hdebit : Leg.debit.row? r = some ⟨.forward r.id, source, -r.amount⟩ :=
    Leg.row?_of_account hs
  have hrefund : Leg.refund.row? r = some ⟨.compensation r.id, source, r.amount⟩ :=
    Leg.row?_of_account hs
  have happlied : ∀ {leg row}, leg ∈ r.type.due r.status r.compensation → leg.row? r = some row →
      row ∈ m.stores.book.applied := by
    intro leg row hl hlr
    obtain ⟨x, hx, hm⟩ := hb leg hl
    cases hx.symm.trans hlr
    exact hm
  refine ⟨fun hc => ⟨fun hn => ?_, ?_⟩, source, hs, fun hc => happlied ?_ hdebit,
    fun hc => happlied ?_ hrefund⟩
  · have hk := (hm.staged.kept transfers_disclose ht ha r.id r hrow).1 hty
    obtain ⟨leg, step, row, hstep, hlr, hmem, hlt⟩ := (hk.failed hf hc).resolve_left hn
    have happ := (Book.mem_rowsOf.mp hmem).1
    refine ⟨leg, step, row, hstep, hlr, (hm.staged.mem_applied row).mp happ, fun e he hw => ?_⟩
    obtain ⟨q, hq, hnlt⟩ := hm.staged.stored he hw
    cases Stores.row?_unique hrow hq
    exact hnlt hlt
  · rintro ⟨leg, step, row, _, hlr, he, _⟩ hnil
    have happ := (hm.staged.mem_applied row).mpr he
    have hmem := Book.mem_rowsOf.mpr ⟨happ, Leg.row?_transaction hlr⟩
    rw [hnil] at hmem
    cases hmem
  · rw [hf]
    cases hcomp : r.compensation with
    | none => exact absurd hcomp hc
    | succeeded | failed => simp [OperationType.due]
  · simp [hf, hc, OperationType.due]

/-- The debit is applied, the write of its step fails, and the transfer is closed as if nothing had
moved. -/
def forgottenDebit : List Move :=
  debitedTransfer.dropLast ++
    [.answer 0 (.refused (.store (.database "down"))), .answer 0 (.served 0)]

theorem debit_held_of_forgottenDebit :
    ∃ m, Machine.play plainService {} forgottenDebit = some m ∧ takesTurns m.history = true ∧
      m.history.all (·.reply.arrives) = true ∧
      m.stores.table.rows.map (fun r => (r.id, r.type, r.status, r.compensation)) =
        [(1, .transfer, .failed, .none)] ∧
      (OperationId.forward 1, 1) ∈ m.stores.book.applied.map AppliedRow.slot := by
  obtain ⟨m, hm, hr⟩ := Option.map_eq_some_iff.mp (show
    (Machine.play plainService {} forgottenDebit).map (fun m =>
      m.stores.table.rows.map fun r => (r.id, r.type, r.status, r.compensation)) =
      some [(1, .transfer, .failed, .none)] by decide +kernel)
  have ht := Machine.eq_of_play (fun m => takesTurns m.history) hm
    (show _ = some true by decide +kernel)
  have ha := Machine.eq_of_play (fun m => m.history.all (·.reply.arrives)) hm
    (show _ = some true by decide +kernel)
  have hs := Machine.eq_of_play (fun m => m.stores.book.applied.map AppliedRow.slot) hm
    (show _ = some [(.forward 1, 1)] by decide +kernel)
  exact ⟨m, hm, ht, ha, hr, by simp [hs]⟩

theorem failed_transfer_leaves_forgottenDebit :
    ∃ m, Machine.play plainService {} forgottenDebit = some m ∧
      ∃ r ∈ m.stores.table.rows, r.compensation = .none ∧ m.Unrecorded r := by
  obtain ⟨m, hm, hr⟩ := Option.map_eq_some_iff.mp (show
    (Machine.play plainService {} forgottenDebit).map (fun m =>
      m.stores.table.rows.map fun r => (r.id, r.type, r.status, r.compensation)) =
      some [(1, .transfer, .failed, .none)] by decide +kernel)
  have ht := Machine.eq_of_play (fun m => takesTurns m.history) hm
    (show _ = some true by decide +kernel)
  have ha := Machine.eq_of_play (fun m => m.history.all (·.reply.arrives)) hm
    (show _ = some true by decide +kernel)
  have hs := Machine.eq_of_play (fun m => (m.stores.book.rowsOf 1).map AppliedRow.slot) hm
    (show _ = some [(.forward 1, 1)] by decide +kernel)
  obtain ⟨r, hrow, hfields⟩ : ∃ r ∈ m.stores.table.rows,
      (r.id, r.type, r.status, r.compensation) = ((1 : Int), .transfer, .failed, .none) :=
    List.mem_map.mp (by simp [hr])
  simp only [Prod.mk.injEq] at hfields
  obtain ⟨hid, hty, hstatus, hcomp⟩ := hfields
  have hl := failed_transfer_leaves (Reachable.empty.play hm) ht ha hrow hty hstatus
  refine ⟨m, hm, r, hrow, hcomp, (hl.1 hcomp).mp fun hnil => ?_⟩
  rw [hid] at hnil
  simp [hnil] at hs

end Settlement
