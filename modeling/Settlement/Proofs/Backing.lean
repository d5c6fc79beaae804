import Settlement.Proofs.Deeds
import Settlement.Proofs.Lifecycle

/-!
What a record says is backed by rows of the ledger, whoever drives it and whichever calls fail, with or
without effect. Rows stay, steps do not go back and ends are final, so what one driver has seen to be
backed stays so while the others go on.
-/

namespace Settlement

/-- The legs that an end of a transaction stands for. -/
def OperationType.due (type : OperationType) : TransactionStatus → CompensationStatus → List Leg
  | .completed, _ => type.legs
  | .failed, .succeeded => [.debit, .refund]
  | .failed, .failed => [.debit]
  | _, _ => []

theorem OperationType.due_of_open (type : OperationType) {status : TransactionStatus}
    (ho : status.isTerminal = false) (compensation : CompensationStatus) :
    type.due status compensation = [] := by
  cases status with
  | created | processing => rfl
  | completed | failed => cases ho

/-- A step is stored after the last of its legs. -/
theorem Leg.legs_of_step? {leg : Leg} {step : TransactionStep} (h : leg.step? = some step) :
    step.legs = leg.before ++ [leg] := by
  cases leg with
  | debit | credit =>
    cases h
    rfl
  | refund | deposit | withdraw => cases h

theorem TransactionStep.eq_of_not_lt {step : TransactionStep} (h : ¬step < .creditDone) :
    step = .creditDone := by
  cases step with
  | creditDone => rfl
  | none | debitDone => exact absurd (by decide) h

theorem TransactionRecord.Before.credited {r r' : TransactionRecord} (h : r.Before r')
    (hs : r.step = .creditDone) : r'.step = .creditDone := by
  refine TransactionStep.eq_of_not_lt fun hl => ?_
  have hr := h.forward _ hl
  rw [hs] at hr
  exact absurd hr (by decide)

namespace Stores

def Has (σ : Stores) (tx : TransactionRecord) (leg : Leg) : Prop :=
  ∃ row, leg.row? tx = some row ∧ row ∈ σ.book.applied

/-- Whether the record may end so. A completed transfer has stored all its steps. -/
structure Warrants (σ : Stores) (r : TransactionRecord) (status : TransactionStatus)
    (compensation : CompensationStatus) : Prop where
  legs : ∀ leg ∈ r.type.due status compensation, σ.Has r leg
  clean : status = .completed → compensation = .none
  stepped : status = .completed → r.type = .transfer → r.step = .creditDone

structure Backs (σ : Stores) (r : TransactionRecord) : Prop where
  stepped : ∀ leg ∈ r.step.legs, σ.Has r leg
  ended : σ.Warrants r r.status r.compensation
  quiet : r.status = .completed → r.errorMessage = none

section

variable {σ σ' : Stores} {r r' tx : TransactionRecord} {leg : Leg} {eff : Effect}
  {status : TransactionStatus} {compensation : CompensationStatus}

theorem Has.same (h : σ.Has tx leg) (hs : tx.Same r) : σ.Has r leg := by
  obtain ⟨row, hr, hm⟩ := h
  exact ⟨row, (Leg.row?_same hs leg) ▸ hr, hm⟩

theorem warrants_open (ho : status.isTerminal = false) : σ.Warrants r status compensation := by
  refine ⟨?_, ?_, ?_⟩
  · simp [OperationType.due_of_open r.type ho]
  · rintro rfl
    cases ho
  · rintro rfl
    cases ho

theorem warrants_unmoved : σ.Warrants r .failed .none := ⟨by simp [OperationType.due], nofun, nofun⟩

structure Onward (σ σ' : Stores) : Prop where
  rows : ∀ row ∈ σ.book.applied, row ∈ σ'.book.applied
  records : ∀ id r, σ.table.row? id = some r → ∃ r', σ'.table.row? id = some r' ∧ r.Before r'

theorem onward_of_eq (table : σ'.table = σ.table) (rows : σ'.book.applied = σ.book.applied) :
    σ.Onward σ' :=
  ⟨fun _ hm => rows ▸ hm, fun _ r hr => ⟨r, table ▸ hr, .refl r⟩⟩

theorem Change.onward (h : σ.Change eff σ') : σ.Onward σ' := by
  refine ⟨fun row hm => (h.mem_applied row).mpr (.inl hm), fun id r hr => ?_⟩
  cases h with
  | nothing => exact ⟨r, hr, .refl r⟩
  | applied fresh rows table => exact ⟨r, table ▸ hr, .refl r⟩
  | @wrote _ other w table =>
    cases table with
    | written now row allowed rows =>
      have hid := (TransactionTable.mem_of_row? hr).2
      refine ⟨_, by rw [TransactionTable.row?_map rows, hr]; rfl, ?_⟩
      dsimp only
      split
      next hi =>
        rw [← hi, hid] at row
        cases row?_unique hr row
        exact Write.before allowed now
      next => exact .refl r
  | inserted table =>
    cases table with
    | inserted now row free rows =>
      exact ⟨r, by rw [TransactionTable.row?_append rows, hr]; rfl, .refl r⟩

theorem Onward.has (h : σ.Onward σ') (hl : σ.Has r leg) : σ'.Has r leg := by
  obtain ⟨row, hr, hm⟩ := hl
  exact ⟨row, hr, h.rows row hm⟩

theorem Warrants.later (h : σ.Warrants r status compensation) (hc : σ.Onward σ')
    (hb : r.Before r') : σ'.Warrants r' status compensation := by
  refine ⟨fun leg hl => ?_, h.clean, fun hs ht => hb.credited (h.stepped hs ?_)⟩
  · rw [← hb.same.type_eq] at hl
    exact (hc.has (h.legs leg hl)).same hb.same
  · rw [hb.same.type_eq, ht]

theorem Backs.later (h : σ.Backs r) (hc : σ.Onward σ') : σ'.Backs r :=
  ⟨fun leg hl => hc.has (h.stepped leg hl), h.ended.later hc (.refl r), h.quiet⟩

end

def Supports (σ : Stores) (r : TransactionRecord) : Write → Prop
  | .take => True
  | .advance step => ∀ leg ∈ step.legs, σ.Has r leg
  | .close fin => fin.Proper ∧ σ.Warrants r fin.status fin.compensation

section

variable {σ σ' : Stores} {r tx : TransactionRecord} {leg : Leg} {eff : Effect} {reply : Reply}
  {w : Write} {id : TransactionId}

theorem Backs.write (h : σ.Backs r) (ha : w.allows r) (hw : σ.Supports r w) (now : Instant) :
    σ.Backs (w.apply now r) := by
  have hsame := (TransactionRecord.Same.refl r).apply w now
  have ho := Write.open_of_allows ha
  cases w with
  | take => exact ⟨fun leg hl => (h.stepped leg hl).same hsame, warrants_open rfl, nofun⟩
  | advance step =>
    refine ⟨fun leg hl => (hw leg hl).same hsame, warrants_open ho, fun hc => ?_⟩
    have hc : r.status = .completed := hc
    rw [hc] at ho
    cases ho
  | close fin =>
    obtain ⟨hp, hw⟩ := hw
    refine ⟨fun leg hl => (h.stepped leg hl).same hsame, ?_, hp⟩
    exact ⟨fun leg hl => (hw.legs leg hl).same hsame, hw.clean, hw.stepped⟩

theorem Wrote.backs {a : Except ServiceError Bool} (hw : σ.Wrote id w reply a eff σ')
    (hs : σ.table.Sound) (hb : ∀ r ∈ σ.table.rows, σ.Backs r)
    (hd : ∀ r, σ.table.row? id = some r → w.allows r → σ.Supports r w) :
    ∀ r ∈ σ'.table.rows, σ'.Backs r := by
  have hch := hw.change.1.onward
  cases hw with
  | unwritten => exact hb
  | written table book =>
    cases table with
    | written now row allowed rows =>
      intro r' hr'
      rw [rows] at hr'
      obtain ⟨r, hr, rfl⟩ := List.mem_map.mp hr'
      split
      next hi =>
        have hrow := hs.row?_of_mem hr
        rw [hi] at hrow
        have ha : w.allows r := row?_unique hrow row ▸ allowed
        exact ((hb r hr).write ha (hd r hrow ha) now).later hch
      next => exact (hb r hr).later hch

theorem Stored.backs {new : NewTransaction} (h : σ.Stored new eff σ')
    (hb : ∀ r ∈ σ.table.rows, σ.Backs r) : ∀ r ∈ σ'.table.rows, σ'.Backs r := by
  have hch := h.change.1.onward
  cases h with
  | unstored => exact hb
  | inserted table book =>
    cases table with
    | inserted now row free rows =>
      intro r' hr'
      rw [rows] at hr'
      rcases List.mem_append.mp hr' with hr | hr
      · exact (hb r' hr).later hch
      · cases List.mem_singleton.mp hr
        rw [row]
        exact ⟨by simp [TransactionTable.fresh, TransactionStep.legs], warrants_open rfl, nofun⟩

theorem Moved.backs {row : AppliedRow} {a : Except LedgerError MutationOutcome}
    (h : σ.Moved row reply a eff σ') (hb : ∀ r ∈ σ.table.rows, σ.Backs r) :
    ∀ r ∈ σ'.table.rows, σ'.Backs r := by
  have hch := h.change.1.onward
  cases h with
  | unapplied => exact hb
  | applied fresh rows table =>
    intro r hr
    rw [table] at hr
    exact (hb r hr).later hch

/-- A leg that the ledger has answered for is applied. -/
theorem Moved.has {row : AppliedRow} {outcome : MutationOutcome}
    (h : σ.Moved row reply (.ok outcome) eff σ') (hg : σ.Grounded) (ht : σ.Holds tx)
    (hl : leg.type = tx.type) (hrow : leg.row? tx = some row) : σ'.Has tx leg := by
  cases h with
  | applied fresh rows => exact ⟨row, hrow, by simp [rows]⟩
  | unapplied known =>
    obtain ⟨r, hr, hs⟩ := ht
    have hm := hg.row_of_slot hr (hl.trans hs.type_eq) (Leg.row?_same hs leg ▸ hrow) (known _ rfl)
    exact ⟨row, hrow, (Book.mem_rowsOf.mp hm).1⟩

end
end Stores

/-- The ledger has what the driver goes by. A driver that is about to end a record may do so, unless
another one has ended it before. -/
def Stage.Backed (σ : Stores) : Stage → Prop
  | idle _ | taken _ | ended => True
  | moving leg tx => ∀ k ∈ leg.before, σ.Has tx k
  | recording leg tx => ∀ k ∈ leg.before ++ [leg], σ.Has tx k
  | settling id status compensation => ∃ r, σ.table.row? id = some r ∧
      (r.status.isTerminal = true ∨ σ.Warrants r status compensation)

section

variable {σ σ' : Stores} {st st' : Stage} {r tx : TransactionRecord} {leg : Leg} {call : Call}
  {a : call.Answer} {reply : Reply} {eff : Effect}

/-- What is backed stays backed while others go on. -/
theorem Stage.Backed.later (h : st.Backed σ) (hc : σ.Onward σ') : st.Backed σ' := by
  cases st with
  | idle | taken | ended => trivial
  | moving leg tx => exact fun k hk => hc.has (h k hk)
  | recording leg tx => exact fun k hk => hc.has (h k hk)
  | settling id status compensation =>
    obtain ⟨r, hr, hw⟩ := h
    obtain ⟨r', hr', hb⟩ := hc.records id r hr
    refine ⟨r', hr', hw.imp (fun ht => ?_) fun hw => hw.later hc hb⟩
    rw [hb.final ht, ht]

theorem Stage.begins_backed (hr : σ.table.row? r.id = some r) (hb : σ.Backs r) :
    (begins r).Backed σ := by
  unfold begins
  split
  next => exact fun k hk => by cases hk
  next hs => exact fun k hk => hb.stepped k (by rwa [hs])
  next ht hs =>
    refine ⟨r, hr, .inr ⟨fun leg hl => hb.stepped leg ?_, fun _ => rfl, fun _ _ => hs⟩⟩
    rw [ht] at hl
    rwa [hs]
  next => exact fun k hk => by cases hk
  next => exact fun k hk => by cases hk

theorem Stage.resumes_backed (hr : σ.table.row? r.id = some r) (hb : σ.Backs r) :
    (resumes r).Backed σ := by
  unfold resumes
  split
  next h => exact fun k hk => hb.stepped k (by rwa [h.2])
  next => exact ⟨r, hr, .inr Stores.warrants_unmoved⟩

theorem Stage.moved_backed (ht : σ.Holds tx) (hl : leg.type = tx.type)
    (hb : ∀ k ∈ leg.before ++ [leg], σ.Has tx k) : (moved leg tx).Backed σ := by
  have hend : ∀ {status compensation}, tx.type.due status compensation = leg.before ++ [leg] →
      (status = .completed → compensation = .none) → (status = .completed → tx.type ≠ .transfer) →
      (settling tx.id status compensation).Backed σ := by
    intro status compensation hd hc hn
    obtain ⟨r, hr, hs⟩ := ht
    refine ⟨r, hr, .inr ⟨fun k hk => (hb k ?_).same hs, hc, fun he ht => ?_⟩⟩
    · rwa [← hs.type_eq, hd] at hk
    · exact absurd (hs.type_eq.trans ht) (hn he)
  cases leg with
  | debit | credit => exact hb
  | refund => exact hend rfl nofun nofun
  | deposit | withdraw => exact hend (by rw [← hl]; rfl) (fun _ => rfl) (fun _ => by rw [← hl]; nofun)

theorem Stage.refused_backed (ht : σ.Holds tx) (hl : leg.type = tx.type)
    (hb : ∀ k ∈ leg.before, σ.Has tx k) : (refused leg tx).Backed σ := by
  obtain ⟨r, hr, hs⟩ := ht
  cases leg with
  | credit => exact hb
  | refund => exact ⟨r, hr, .inr ⟨fun k hk => (hb k hk).same hs, nofun, nofun⟩⟩
  | debit | deposit | withdraw => exact ⟨r, hr, .inr Stores.warrants_unmoved⟩

theorem Stage.failed_backed (ht : σ.Holds tx) (e : ServiceError) :
    (failed tx (.plain e)).Backed σ := by
  obtain ⟨r, hr, _⟩ := ht
  unfold failed
  split
  · trivial
  · exact ⟨r, hr, .inr Stores.warrants_unmoved⟩

/-- Once the store has answered for a step, the step is stored or the record has ended. -/
theorem Stage.recorded_backed {step : TransactionStep} {done : Bool} (hst : leg.step? = some step)
    (ht : σ.Holds tx) (hl : leg.type = tx.type) (hb : ∀ k ∈ leg.before ++ [leg], σ.Has tx k)
    (hw : σ.Wrote tx.id (.advance step) reply (.ok done) eff σ') : (recorded leg tx).Backed σ' := by
  have hch := hw.change.1.onward
  cases leg with
  | debit => exact fun k hk => hch.has (hb k hk)
  | refund | deposit | withdraw => cases hst
  | credit =>
    cases hst
    obtain ⟨r, hr, hs⟩ := ht
    have hhas : ∀ k ∈ OperationType.legs .transfer, σ'.Has r k := fun k hk =>
      hch.has ((hb k hk).same hs)
    have hty : r.type.due .completed .none = OperationType.legs .transfer := by
      rw [← hs.type_eq, ← hl]
      rfl
    rcases hw.record hr with ⟨now, hal, hr', _⟩ | ⟨_, rfl, ⟨_, hn⟩ | ⟨⟨e, he⟩, _⟩⟩
    · have hsame := (TransactionRecord.Same.refl r).apply (.advance .creditDone) now
      refine ⟨_, hr', .inr ⟨fun k hk => (hhas k ?_).same hsame, fun _ => rfl, fun _ _ => rfl⟩⟩
      rwa [← hsame.type_eq, hty] at hk
    · refine ⟨r, hr, ?_⟩
      cases ho : r.status.isTerminal with
      | true => exact .inl rfl
      | false =>
        have hstep : ¬r.step < .creditDone := by simpa [Write.allows, ho] using hn
        refine .inr ⟨fun k hk => hhas k (hty ▸ hk), fun _ => rfl, fun _ _ => ?_⟩
        exact TransactionStep.eq_of_not_lt hstep
    · cases he

/-- What one turn does to the records. -/
theorem Turn.backs (hg : σ.Grounded) (ha : st.Anchored σ) (hst : st.Backed σ)
    (hb : ∀ r ∈ σ.table.rows, σ.Backs r) (ht : Turn st call a st')
    (hm : σ.meet call reply = some (.value a, eff, σ')) : ∀ r ∈ σ'.table.rows, σ'.Backs r := by
  have hadvance : ∀ {leg : Leg} {tx : TransactionRecord} {step : TransactionStep},
      leg.step? = some step → (Stage.recording leg tx).Anchored σ →
      (Stage.recording leg tx).Backed σ → ∀ r, σ.table.row? tx.id = some r →
        (Write.advance step).allows r → σ.Supports r (.advance step) := by
    intro leg tx step hl ha hst r hr _ k hk
    obtain ⟨q, hq, hs⟩ := ha.1
    cases Stores.row?_unique hr hq
    rw [Leg.legs_of_step? hl] at hk
    exact (hst k hk).same hs
  cases ht with
  | look hc =>
    obtain ⟨_, rfl⟩ := Stores.meet_reads hc hm
    exact hb
  | load | unread | reload =>
    obtain ⟨_, rfl⟩ := Stores.meet_reads rfl hm
    exact hb
  | insert => exact (Stores.meet_insert hg.sound hm).backs hb
  | take | pass => exact (Stores.meet_markProcessing hm).backs hg.sound hb fun _ _ _ => trivial
  | moved | contended | refused => exact (Stores.meet_mutate hm).backs hb
  | recorded hl | unrecorded hl =>
    exact (Stores.meet_advanceStep hm).backs hg.sound hb (hadvance hl ha hst)
  | close hp =>
    refine (Stores.meet_finalize hm).backs hg.sound hb fun r hr hal => ⟨hp, ?_⟩
    obtain ⟨q, hq, hw⟩ := hst
    cases Stores.row?_unique hr hq
    refine hw.resolve_left fun hterm => ?_
    rw [Write.open_of_allows hal] at hterm
    contradiction

/-- What one turn leaves its driver with. -/
theorem Turn.backed (hg : σ.Grounded) (ha : st.Anchored σ) (hst : st.Backed σ)
    (hb : ∀ r ∈ σ.table.rows, σ.Backs r) (ht : Turn st call a st')
    (hm : σ.meet call reply = some (.value a, eff, σ')) : st'.Backed σ' := by
  have hkeep := (Stores.meet_change hg.sound hm).1.keeps
  have hch := (Stores.meet_change hg.sound hm).1.onward
  cases ht with
  | look | insert | take | pass | unread | contended | close => trivial
  | load =>
    obtain ⟨_, rfl⟩ := Stores.meet_reads rfl hm
    have hr := Stores.meet_get hm _ rfl
    obtain ⟨hrow, hid⟩ := TransactionTable.mem_of_row? hr
    exact Stage.begins_backed (by rw [hid, hr]) (hb _ hrow)
  | reload =>
    obtain ⟨_, rfl⟩ := Stores.meet_reads rfl hm
    have hr := Stores.meet_get hm _ rfl
    obtain ⟨hrow, hid⟩ := TransactionTable.mem_of_row? hr
    exact Stage.resumes_backed (by rw [hid, hr]) (hb _ hrow)
  | @moved _ leg tx account hl =>
    have hmoved := (Stores.meet_mutate hm).has hg ha.1 ha.2 (Leg.row?_of_account hl)
    refine Stage.moved_backed (hkeep.holds ha.1) ha.2 fun k hk => ?_
    rcases List.mem_append.mp hk with hk | hk
    · exact hch.has (hst k hk)
    · cases List.mem_singleton.mp hk
      exact hmoved
  | refused => exact Stage.refused_backed (hkeep.holds ha.1) ha.2 fun k hk => hch.has (hst k hk)
  | recorded hl => exact Stage.recorded_backed hl ha.1 ha.2 hst (Stores.meet_advanceStep hm)
  | unrecorded => exact Stage.failed_backed (hkeep.holds ha.1) _

end

/-- Whatever drivers do side by side, the ledger has what the records say and what the drivers go by. -/
theorem Staged.backed {stages : Nat → Stage} {σ : Stores} {past : List Event}
    (h : Staged stages σ past) :
    (∀ r ∈ σ.table.rows, σ.Backs r) ∧ ∀ p, (stages p).Backed σ := by
  induction h with
  | empty => exact ⟨by simp, fun _ => trivial⟩
  | @turn stages σ σ' past p _ _ st _ _ hs ht hm ih =>
    obtain ⟨hb, hst⟩ := ih
    obtain ⟨hg, ha⟩ := hs.grounded
    have hch := (Stores.meet_change hg.sound hm).1.onward
    refine ⟨ht.backs hg (ha p) (hst p) hb hm, ?_⟩
    rw [Function.forall_update_iff stages fun _ st => st.Backed σ']
    exact ⟨ht.backed hg (ha p) (hst p) hb hm, fun q _ => (hst q).later hch⟩
  | @broke stages σ _ _ _ _ _ ih | @stop stages σ _ _ _ ih =>
    rw [Function.forall_update_iff stages fun _ st => st.Backed σ]
    exact ⟨ih.1, trivial, fun q _ => ih.2 q⟩
  | aside _ table rows ih =>
    have hch := Stores.onward_of_eq table rows
    refine ⟨fun r hr => ?_, fun p => (ih.2 p).later hch⟩
    rw [table] at hr
    exact (ih.1 r hr).later hch

/-- The rows of a completed record of each type, with the accounts and amounts of the record. -/
def TransactionRecord.Executed (r : TransactionRecord) (rows : List AppliedRow) : Prop :=
  match r.type with
  | .transfer => ∃ source target, r.source = some source ∧ r.target = some target ∧
      ⟨.forward r.id, source, -r.amount⟩ ∈ rows ∧ ⟨.forward r.id, target, r.targetAmount⟩ ∈ rows
  | .deposit => ∃ target, r.target = some target ∧ ⟨.forward r.id, target, r.amount⟩ ∈ rows
  | .withdraw => ∃ source, r.source = some source ∧ ⟨.forward r.id, source, -r.amount⟩ ∈ rows

namespace Stores

section

variable {σ : Stores} {r : TransactionRecord} {leg : Leg}

theorem Has.row (h : σ.Has r leg) : ∃ account, leg.account r.payload = some account ∧
    ⟨⟨r.id, leg.phase⟩, account, leg.direction.delta (leg.amount r.payload)⟩ ∈ σ.book.applied := by
  obtain ⟨row, hr, hm⟩ := h
  obtain ⟨account, ha, rfl⟩ := Option.map_eq_some_iff.mp hr
  exact ⟨account, ha, hm⟩

theorem executed_of_legs (h : ∀ leg ∈ r.type.legs, σ.Has r leg) : r.Executed σ.book.applied := by
  unfold TransactionRecord.Executed
  cases ht : r.type with
  | transfer =>
    rw [ht] at h
    obtain ⟨source, hs, hd⟩ := (h .debit (by simp [OperationType.legs])).row
    obtain ⟨target, hta, hc⟩ := (h .credit (by simp [OperationType.legs])).row
    exact ⟨source, target, hs, hta, hd, hc⟩
  | deposit =>
    rw [ht] at h
    exact (h .deposit (by simp [OperationType.legs])).row
  | withdraw =>
    rw [ht] at h
    exact (h .withdraw (by simp [OperationType.legs])).row

end
end Stores

/-- A record is completed, and a step stored, only after the ledger has what they say, whatever
drivers do side by side, whichever calls fail, with or without effect, and whoever stops in between. -/
theorem completed_and_steps_backed {s : Service} {m : Machine} (h : Reachable s m)
    {r : TransactionRecord} (hr : r ∈ m.stores.table.rows) :
    (r.status = .completed →
      (r.type = .transfer → r.step = .creditDone) ∧ r.Executed m.stores.book.applied ∧
        r.compensation = .none ∧ r.errorMessage = none) ∧
    (¬r.step < .debitDone → ∃ source, r.source = some source ∧
      ⟨.forward r.id, source, -r.amount⟩ ∈ m.stores.book.applied) ∧
    (¬r.step < .creditDone → ∃ target, r.target = some target ∧
      ⟨.forward r.id, target, r.targetAmount⟩ ∈ m.stores.book.applied) := by
  obtain ⟨stages, hm⟩ := h.matched
  have hb := hm.staged.backed.1 r hr
  refine ⟨fun hc => ⟨hb.ended.stepped hc, ?_, hb.ended.clean hc, hb.quiet hc⟩, fun hd => ?_,
    fun hc => ?_⟩
  · refine Stores.executed_of_legs fun leg hl => hb.ended.legs leg ?_
    rwa [hc]
  · have hl : Leg.debit ∈ r.step.legs := by
      cases hs : r.step with
      | none => exact absurd (by rw [hs]; decide) hd
      | debitDone | creditDone => simp [TransactionStep.legs]
    exact (hb.stepped .debit hl).row
  · have hl : Leg.credit ∈ r.step.legs := by
      simp [TransactionStep.eq_of_not_lt hc, TransactionStep.legs]
    exact (hb.stepped .credit hl).row

/-- The credit is applied although its caller is told of a conflict, the request is cut off then, and
a recovery completes the transfer. -/
def recoveredTransfer : List Move :=
  debitedTransfer ++
    [.answer 0 (.lost 0 (.ledger (.lockConflict 2))), .stop 0, .start (.recover 1),
      .answer 1 (.served 0), .answer 1 (.served 0), .answer 1 (.served 0), .answer 1 (.served 0),
      .answer 1 (.served 0)]

theorem completed_and_steps_backed_recoveredTransfer :
    ∃ m, Machine.play plainService {} recoveredTransfer = some m ∧ ∃ r ∈ m.stores.table.rows,
      r.status = .completed ∧ r.step = .creditDone ∧ r.Executed m.stores.book.applied := by
  obtain ⟨m, hm, hr⟩ := Option.map_eq_some_iff.mp (show
    (Machine.play plainService {} recoveredTransfer).map (fun m =>
      m.stores.table.rows.map fun r => (r.type, r.status)) =
      some [(.transfer, .completed)] by decide +kernel)
  obtain ⟨r, hrow, hfields⟩ : ∃ r ∈ m.stores.table.rows,
      (r.type, r.status) = (.transfer, .completed) :=
    List.mem_map.mp (by simp [hr])
  simp only [Prod.mk.injEq] at hfields
  obtain ⟨hty, hstatus⟩ := hfields
  obtain ⟨hstep, hexec, _⟩ := (completed_and_steps_backed (Reachable.empty.play hm) hrow).1 hstatus
  exact ⟨m, hm, r, hrow, hstatus, hstep hty, hexec⟩

end Settlement
