import Settlement.Proofs.Machine

/-!
A turn as one record sees it: what it does to the record and to the record's rows. Every turn on
another record leaves both alone.
-/

namespace Settlement

/-- A turn on the record `r`, whose rows are `rows`, that was made at the first stage and answered so
that its caller knows what happened. -/
inductive Deed (r : TransactionRecord) (rows : List AppliedRow) :
    Stage → Event → Stage → TransactionRecord → List AppliedRow → Prop
  | pass {e : Event} (effect : e.effect = .nothing) : Deed r rows (.idle last) e (.idle none) r rows
  | take {e : Event} (now : Instant) (effect : e.effect = .wrote r.id .take)
      (allowed : Write.take.allows r) :
      Deed r rows (.idle last) e (.taken r.id) (Write.take.apply now r) rows
  | load {e : Event} (effect : e.effect = .nothing) : Deed r rows (.taken r.id) e (.begins r) r rows
  | unread {e : Event} (effect : e.effect = .nothing) :
      Deed r rows (.taken r.id) e (.idle none) r rows
  | reload {e : Event} {last : TransactionRecord} (effect : e.effect = .nothing)
      (same : last.Same r) : Deed r rows (.idle (some last)) e (.resumes r) r rows
  | applied {e : Event} {leg : Leg} {tx : TransactionRecord} {row : AppliedRow} (same : tx.Same r)
      (type : leg.type = r.type) (hr : leg.row? r = some row) (fresh : row ∉ rows)
      (effect : e.effect = .applied row) :
      Deed r rows (.moving leg tx) e (.moved leg tx) r (rows ++ [row])
  | replayed {e : Event} {leg : Leg} {tx : TransactionRecord} {row : AppliedRow} (same : tx.Same r)
      (type : leg.type = r.type) (hr : leg.row? r = some row) (known : row ∈ rows)
      (effect : e.effect = .nothing) : Deed r rows (.moving leg tx) e (.moved leg tx) r rows
  | contended {e : Event} {leg : Leg} {tx : TransactionRecord} (same : tx.Same r)
      (type : leg.type = r.type) (effect : e.effect = .nothing) :
      Deed r rows (.moving leg tx) e (.idle (some tx)) r rows
  | refused {e : Event} {leg : Leg} {tx : TransactionRecord} (same : tx.Same r)
      (type : leg.type = r.type) (effect : e.effect = .nothing) :
      Deed r rows (.moving leg tx) e (.refused leg tx) r rows
  | recorded {e : Event} {leg : Leg} {tx : TransactionRecord} {step : TransactionStep}
      (now : Instant) (same : tx.Same r) (type : leg.type = r.type) (hs : leg.step? = some step)
      (effect : e.effect = .wrote r.id (.advance step)) (allowed : (Write.advance step).allows r) :
      Deed r rows (.recording leg tx) e (.recorded leg tx) ((Write.advance step).apply now r) rows
  | barred {e : Event} {leg : Leg} {tx : TransactionRecord} {step : TransactionStep}
      (same : tx.Same r) (type : leg.type = r.type) (hs : leg.step? = some step)
      (effect : e.effect = .nothing) (barred : (Write.advance step).allows r = false) :
      Deed r rows (.recording leg tx) e (.recorded leg tx) r rows
  | unrecorded {e : Event} {leg : Leg} {tx : TransactionRecord} {error : ServiceError}
      (same : tx.Same r) (type : leg.type = r.type) (effect : e.effect = .nothing)
      (failed : e.reply.storeFails = true) :
      Deed r rows (.recording leg tx) e (.failed tx (.plain error)) r rows
  | close {e : Event} {fin : Finalization} (now : Instant)
      (effect : e.effect = .wrote r.id (.close fin)) (allowed : (Write.close fin).allows r)
      (final : fin.status.isTerminal = true) :
      Deed r rows (.settling r.id fin.status fin.compensation) e (.idle none)
        ((Write.close fin).apply now r) rows
  | unclosed {e : Event} {fin : Finalization} (effect : e.effect = .nothing)
      (why : r.status.isTerminal = true ∨ e.reply.storeFails = true) :
      Deed r rows (.settling r.id fin.status fin.compensation) e (.idle none) r rows

/-- No deed touches what was inserted. -/
theorem Deed.keeps {r r' : TransactionRecord} {rows rows' : List AppliedRow} {st st' : Stage}
    {e : Event} (h : Deed r rows st e st' r' rows') : r.Same r' := by
  have hr := TransactionRecord.Same.refl r
  cases h with
  | take now => exact hr.apply _ now
  | recorded now => exact hr.apply _ now
  | close now => exact hr.apply _ now
  | pass | load | unread | reload | applied | replayed | contended | refused | barred | unrecorded
  | unclosed => exact hr

namespace Stores

section

variable {σ σ' : Stores} {r : TransactionRecord} {id : TransactionId} {w : Write} {reply : Reply}
  {eff : Effect}

theorem row?_unique {q : TransactionRecord} (hr : σ.table.row? id = some r)
    (hq : σ.table.row? id = some q) : q = r :=
  Option.some.inj (hq.symm.trans hr)

/-- The rows of a record are legs of it. -/
theorem Grounded.leg_of_row (hg : σ.Grounded) {row : AppliedRow} (hr : σ.table.row? id = some r)
    (hm : row ∈ σ.book.rowsOf id) : ∃ leg : Leg, leg.type = r.type ∧ leg.row? r = some row := by
  obtain ⟨ha, hid⟩ := Book.mem_rowsOf.mp hm
  obtain ⟨q, hq, leg, ht, hl⟩ := hg.legs row ha
  have hqid : σ.table.row? id = some q := by
    rw [← hid, Leg.row?_transaction hl]
    exact hg.sound.row?_of_mem hq
  cases row?_unique hr hqid
  exact ⟨leg, ht, hl⟩

/-- A slot of the ledger that a leg of the record would take is taken by that leg. -/
theorem Grounded.row_of_slot (hg : σ.Grounded) {leg : Leg} {row : AppliedRow}
    (hr : σ.table.row? id = some r) (hl : leg.type = r.type) (hrow : leg.row? r = some row)
    (hs : row.slot ∈ σ.book.applied.map AppliedRow.slot) : row ∈ σ.book.rowsOf id := by
  obtain ⟨x, hx, he⟩ := List.mem_map.mp hs
  have hid := (TransactionTable.mem_of_row? hr).2
  have ho : x.operation = row.operation := congrArg Prod.fst he
  have hm : x ∈ σ.book.rowsOf id :=
    Book.mem_rowsOf.mpr ⟨hx, by rw [ho, Leg.row?_transaction hrow, hid]⟩
  obtain ⟨k, hk, hkr⟩ := hg.leg_of_row hr hm
  cases Leg.eq_of_slot (hg.wellFormed_of_row? hr) hk hl hkr hrow he
  rw [hkr] at hrow
  cases hrow
  exact hm

theorem Wrote.record {a : Except ServiceError Bool} (h : σ.Wrote id w reply a eff σ')
    (hr : σ.table.row? id = some r) :
    (∃ now, w.allows r = true ∧ σ'.table.row? id = some (w.apply now r) ∧ σ'.book = σ.book ∧
      eff = .wrote id w ∧ (reply.arrives = true → a = .ok true)) ∨
    (eff = .nothing ∧ σ' = σ ∧ ((a = .ok false ∧ w.allows r = false) ∨
      ((∃ e, a = .error e) ∧ reply.storeFails = true))) := by
  cases h with
  | written table book answer =>
    cases table with
    | written now row allowed rows =>
      cases row?_unique hr row
      refine .inl ⟨now, allowed, ?_, book, rfl, answer⟩
      rw [TransactionTable.row?_map rows, hr, Option.map_some]
      simp only [(TransactionTable.mem_of_row? hr).2, if_true]
  | unwritten answer =>
    refine .inr ⟨rfl, rfl, ?_⟩
    exact answer.imp (fun h => ⟨h.1, h.2 r hr⟩) fun h => h

end
end Stores

section

variable {σ σ' : Stores} {r tx : TransactionRecord} {st st' : Stage} {leg : Leg}
  {account : AccountId} {reply : Reply} {eff : Effect} {p : Nat}

theorem Stores.Holds.same (h : σ.Holds tx) (hid : tx.id = r.id)
    (hr : σ.table.row? r.id = some r) : tx.Same r := by
  obtain ⟨q, hq, hs⟩ := h
  rw [hid] at hq
  cases Stores.row?_unique hr hq
  exact hs

/-- A driver at a leg of a record that is stored. -/
theorem Stores.Holds.same_leg (h : σ.Holds tx ∧ leg.type = tx.type) (hid : tx.id = r.id)
    (hr : σ.table.row? r.id = some r) : tx.Same r ∧ leg.type = r.type := by
  have hs := h.1.same hid hr
  exact ⟨hs, h.2.trans hs.type_eq⟩

/-- What the ledger did when a driver asked it for a leg. -/
theorem Stores.Moved.asked {a : Except LedgerError MutationOutcome} {row : AppliedRow}
    (hg : σ.Grounded) (hr : σ.table.row? r.id = some r) (hl : leg.type = r.type)
    (hrow : leg.row? r = some row) (h : σ.Moved row reply a eff σ') :
    σ'.table = σ.table ∧
    ((eff = .applied row ∧ row ∉ σ.book.rowsOf r.id ∧
      σ'.book.rowsOf r.id = σ.book.rowsOf r.id ++ [row] ∧
      (reply.arrives = true → a = .ok .applied)) ∨
    (eff = .nothing ∧ σ' = σ ∧ ∀ outcome, a = .ok outcome → row ∈ σ.book.rowsOf r.id)) := by
  cases h with
  | applied fresh rows table answer =>
    refine ⟨table, .inl ⟨rfl, fun hm => ?_, ?_, answer⟩⟩
    · exact fresh (List.mem_map_of_mem (Book.mem_rowsOf.mp hm).1)
    · rw [Book.rowsOf_applied rows, if_pos (Leg.row?_transaction hrow)]
  | unapplied known =>
    exact ⟨rfl, .inr ⟨rfl, rfl, fun outcome ho => hg.row_of_slot hr hl hrow (known outcome ho)⟩⟩

theorem Turn.deed {call : Call} {a : call.Answer} (hg : σ.Grounded) (ha : st.Anchored σ)
    (ht : Turn st call a st') (hm : σ.meet call reply = some (.value a, eff, σ'))
    (hv : reply.arrives = true) (hc : call.about = some r.id) (hr : σ.table.row? r.id = some r) :
    ∃ r', σ'.table.row? r.id = some r' ∧
      Deed r (σ.book.rowsOf r.id) st ⟨p, call, reply, eff⟩ st' r' (σ'.book.rowsOf r.id) := by
  cases ht with
  | look hw =>
    obtain ⟨rfl, rfl⟩ := Stores.meet_reads hw hm
    exact ⟨r, hr, .pass rfl⟩
  | insert => cases hc
  | take =>
    cases hc
    rcases (Stores.meet_markProcessing hm).record hr with
      ⟨now, hw, hr', hb, rfl, _⟩ | ⟨_, _, ⟨he, _⟩ | ⟨⟨e, he⟩, _⟩⟩
    · rw [hb]
      exact ⟨_, hr', .take now rfl hw⟩
    · simp at he
    · cases he
  | pass hn =>
    cases hc
    rcases (Stores.meet_markProcessing hm).record hr with ⟨_, _, _, _, _, hok⟩ | ⟨rfl, rfl, _⟩
    · exact absurd (hok hv) hn
    · exact ⟨r, hr, .pass rfl⟩
  | load =>
    cases hc
    cases Stores.row?_unique hr (Stores.meet_get hm _ rfl)
    obtain ⟨rfl, rfl⟩ := Stores.meet_reads rfl hm
    exact ⟨r, hr, .load rfl⟩
  | unread =>
    cases hc
    obtain ⟨rfl, rfl⟩ := Stores.meet_reads rfl hm
    exact ⟨r, hr, .unread rfl⟩
  | @reload last tx =>
    have hid : last.id = r.id := Option.some.inj hc
    have hs := Stores.Holds.same ha hid hr
    have htx := Stores.meet_get hm _ rfl
    rw [hid] at htx
    cases Stores.row?_unique hr htx
    obtain ⟨rfl, rfl⟩ := Stores.meet_reads rfl hm
    exact ⟨r, hr, .reload rfl hs⟩
  | @moved _ leg tx account hl =>
    obtain ⟨hs, hty⟩ := Stores.Holds.same_leg ha (Option.some.inj hc) hr
    have hrow := (Leg.row?_same hs leg).symm.trans (Leg.row?_of_account hl)
    obtain ⟨htab, hcase⟩ := (Stores.meet_mutate hm).asked hg hr hty hrow
    refine ⟨r, by rw [htab, hr], ?_⟩
    rcases hcase with ⟨rfl, hf, hrows, _⟩ | ⟨rfl, rfl, hk⟩
    · rw [hrows]
      exact .applied hs hty hrow hf rfl
    · exact .replayed hs hty hrow (hk _ rfl) rfl
  | @contended leg tx account e hl =>
    obtain ⟨hs, hty⟩ := Stores.Holds.same_leg ha (Option.some.inj hc) hr
    have hrow := (Leg.row?_same hs leg).symm.trans (Leg.row?_of_account hl)
    obtain ⟨_, ⟨_, _, _, hok⟩ | ⟨rfl, rfl, _⟩⟩ := (Stores.meet_mutate hm).asked hg hr hty hrow
    · cases hok hv
    · exact ⟨r, hr, .contended hs hty rfl⟩
  | @refused leg tx account e hl =>
    obtain ⟨hs, hty⟩ := Stores.Holds.same_leg ha (Option.some.inj hc) hr
    have hrow := (Leg.row?_same hs leg).symm.trans (Leg.row?_of_account hl)
    obtain ⟨_, ⟨_, _, _, hok⟩ | ⟨rfl, rfl, _⟩⟩ := (Stores.meet_mutate hm).asked hg hr hty hrow
    · cases hok hv
    · exact ⟨r, hr, .refused hs hty rfl⟩
  | @recorded _ _ leg tx hl =>
    obtain ⟨hs, hty⟩ := Stores.Holds.same_leg ha (Option.some.inj hc) hr
    have hw := Stores.meet_advanceStep hm
    rw [hs.id] at hw
    rcases hw.record hr with ⟨now, hal, hr', hb, rfl, _⟩ | ⟨rfl, rfl, ⟨_, hn⟩ | ⟨⟨e, he⟩, _⟩⟩
    · rw [hb]
      exact ⟨_, hr', .recorded now hs hty hl rfl hal⟩
    · exact ⟨r, hr, .barred hs hty hl rfl hn⟩
    · cases he
  | @unrecorded _ leg tx e hl =>
    obtain ⟨hs, hty⟩ := Stores.Holds.same_leg ha (Option.some.inj hc) hr
    have hw := Stores.meet_advanceStep hm
    rw [hs.id] at hw
    rcases hw.record hr with ⟨_, _, _, _, _, hok⟩ | ⟨rfl, rfl, ⟨he, _⟩ | ⟨_, hf⟩⟩
    · cases hok hv
    · cases he
    · exact ⟨r, hr, .unrecorded hs hty rfl hf⟩
  | close =>
    cases hc
    rcases (Stores.meet_finalize hm).record hr with
      ⟨now, hw, hr', hb, rfl, _⟩ | ⟨rfl, rfl, ⟨_, hn⟩ | ⟨_, hf⟩⟩
    · rw [hb]
      exact ⟨_, hr', .close now rfl hw ha.2⟩
    · exact ⟨r, hr, .unclosed rfl (.inl (by simpa [Write.allows] using hn))⟩
    · exact ⟨r, hr, .unclosed rfl (.inr hf)⟩

end

namespace Stage

@[simp] theorem begins_about (tx : TransactionRecord) : (begins tx).about = some tx.id := by
  unfold begins
  split <;> rfl

@[simp] theorem resumes_about (tx : TransactionRecord) : (resumes tx).about = some tx.id := by
  unfold resumes
  split <;> rfl

@[simp] theorem moved_about (leg : Leg) (tx : TransactionRecord) :
    (moved leg tx).about = some tx.id := by
  cases leg <;> rfl

@[simp] theorem refused_about (leg : Leg) (tx : TransactionRecord) :
    (refused leg tx).about = some tx.id := by
  cases leg <;> rfl

@[simp] theorem recorded_about (leg : Leg) (tx : TransactionRecord) :
    (recorded leg tx).about = some tx.id := by
  cases leg <;> rfl

@[simp] theorem failed_about (tx : TransactionRecord) (f : StrategyFailure) :
    (failed tx f).about = some tx.id := by
  unfold failed
  split <;> rfl

end Stage

section

variable {σ σ' : Stores} {r : TransactionRecord} {st st' : Stage} {call : Call} {a : call.Answer}
  {reply : Reply} {eff : Effect} {id : TransactionId}

/-- A driver is at a record because its call was, and then it was there before or the call writes. -/
theorem Turn.about (ht : Turn st call a st') (hm : σ.meet call reply = some (.value a, eff, σ'))
    (h : st'.about = some id) :
    call.about = some id ∧ (st.about = some id ∨ call.writes = true) := by
  cases ht with
  | look | insert | pass | unread | close => cases h
  | take => exact ⟨h, .inr rfl⟩
  | load =>
    have hi := (TransactionTable.mem_of_row? (Stores.meet_get hm _ rfl)).2
    rw [Stage.begins_about, hi] at h
    exact ⟨h, .inl h⟩
  | reload =>
    have hi := (TransactionTable.mem_of_row? (Stores.meet_get hm _ rfl)).2
    rw [Stage.resumes_about, hi] at h
    exact ⟨h, .inl h⟩
  | moved =>
    rw [Stage.moved_about] at h
    exact ⟨h, .inr rfl⟩
  | contended => exact ⟨h, .inr rfl⟩
  | refused =>
    rw [Stage.refused_about] at h
    exact ⟨h, .inr rfl⟩
  | recorded =>
    rw [Stage.recorded_about] at h
    exact ⟨h, .inr rfl⟩
  | unrecorded =>
    rw [Stage.failed_about] at h
    exact ⟨h, .inr rfl⟩

namespace Stores

/-- What is changed about another record leaves this one and its rows alone. -/
theorem Change.frame (h : σ.Change eff σ') (he : eff.about ≠ some id)
    (hr : σ.table.row? id = some r) :
    σ'.table.row? id = some r ∧ σ'.book.rowsOf id = σ.book.rowsOf id := by
  cases h with
  | nothing => exact ⟨hr, rfl⟩
  | @applied _ row fresh rows table =>
    have hn : row.operation.transaction ≠ id := fun h => he (congrArg some h)
    exact ⟨by rw [table, hr], by rw [Book.rowsOf_applied rows, if_neg hn]⟩
  | @wrote _ other w table book =>
    refine ⟨?_, by rw [book]⟩
    cases table with
    | written now row allowed rows =>
      have hn : r.id ≠ other := by
        rw [(TransactionTable.mem_of_row? hr).2]
        exact fun h => he (congrArg some h.symm)
      rw [TransactionTable.row?_map rows, hr, Option.map_some, if_neg hn]
  | inserted table book =>
    cases table with
    | inserted now row free rows =>
      exact ⟨by rw [TransactionTable.row?_append rows, hr]; rfl, by rw [book]⟩

/-- A row is on the ledger from the change on that applied it. -/
theorem Change.mem_applied (h : σ.Change eff σ') (row : AppliedRow) :
    row ∈ σ'.book.applied ↔ row ∈ σ.book.applied ∨ eff = .applied row := by
  cases h with
  | nothing => simp
  | applied fresh rows => simp [rows, eq_comm]
  | wrote table book => simp [book]
  | inserted table book => simp [book]

/-- Only what is stored is changed. -/
theorem Change.present (hg : σ'.Grounded) (h : σ.Change eff σ') (he : eff.about = some id) :
    ∃ r, σ.table.row? id = some r := by
  cases h with
  | nothing | inserted => cases he
  | @applied _ row fresh rows table =>
    obtain ⟨r, hr, leg, _, hl⟩ := hg.legs row (by simp [rows])
    have hi : r.id = id := (Leg.row?_transaction hl).symm.trans (Option.some.inj he)
    exact ⟨r, by rw [← table, ← hi]; exact hg.sound.row?_of_mem hr⟩
  | @wrote _ other w table book =>
    cases he
    cases table with
    | written now row => exact ⟨_, row⟩

theorem Grounded.rowsOf_eq_nil (hg : σ.Grounded) (hn : σ.table.row? id = none) :
    σ.book.rowsOf id = [] := by
  refine List.eq_nil_iff_forall_not_mem.mpr fun row hm => ?_
  obtain ⟨ha, hid⟩ := Book.mem_rowsOf.mp hm
  obtain ⟨r, hr, leg, _, hl⟩ := hg.legs row ha
  have hrow := hg.sound.row?_of_mem hr
  rw [← Leg.row?_transaction hl, hid, hn] at hrow
  cases hrow

/-- A record that was not there before is a new one. -/
theorem Change.fresh (h : σ.Change eff σ') (hn : σ.table.row? id = none)
    (hr : σ'.table.row? id = some r) :
    (∃ new now, r = TransactionTable.fresh new r.id now) ∧ σ'.book = σ.book := by
  cases h with
  | nothing =>
    rw [hn] at hr
    cases hr
  | applied _ _ table =>
    rw [table, hn] at hr
    cases hr
  | wrote table =>
    cases table with
    | written now row allowed rows =>
      rw [TransactionTable.row?_map rows, hn] at hr
      cases hr
  | inserted table book =>
    cases table with
    | inserted now row free rows =>
      rw [TransactionTable.row?_append rows, hn, Option.none_or] at hr
      split at hr
      · cases hr
        exact ⟨⟨_, now, row⟩, book⟩
      · cases hr

end Stores

theorem Stage.Anchored.present (ha : st.Anchored σ) (h : st.about = some id) :
    ∃ r, σ.table.row? id = some r := by
  cases st with
  | idle last =>
    cases last with
    | none => cases h
    | some tx =>
      cases h
      exact ha.imp fun _ h => h.1
  | taken other =>
    cases h
    exact ha
  | settling other =>
    cases h
    exact ha.1
  | moving leg tx | recording leg tx =>
    cases h
    exact ha.1.imp fun _ h => h.1
  | ended => cases h

/-- Only a driver between records calls on something else than the record it is at. -/
theorem Turn.call_about (ht : Turn st call a st') (h : st.about = some id) :
    call.about = some id ∨ st.Idle := by
  cases ht with
  | look | insert | take | pass | reload => exact .inr ⟨_, rfl⟩
  | load | unread | moved | contended | refused | recorded | unrecorded | close => exact .inl h

/-- A task that is at a record is not the one that has just left it. -/
theorem about_update {stages : Nat → Stage} {p q : Nat} (hn : st.about ≠ some id)
    (h : (Function.update stages p st q).about = some id) :
    q ≠ p ∧ Function.update stages p st q = stages q := by
  by_cases hq : q = p
  · subst hq
    rw [Function.update_self] at h
    exact absurd h hn
  · exact ⟨hq, Function.update_of_ne hq _ _⟩

/-- A turn is a deed on a record, or it leaves the record and its driver does not stay with it. -/
theorem Stores.Grounded.turn_cases (hg : σ.Grounded) (ha : st.Anchored σ) (ht : Turn st call a st')
    (hm : σ.meet call reply = some (.value a, eff, σ')) (hv : reply.arrives = true) (p : Nat)
    (id : TransactionId) :
    (∃ r r', σ.table.row? id = some r ∧ σ'.table.row? id = some r' ∧ call.about = some id ∧
      Deed r (σ.book.rowsOf id) st ⟨p, call, reply, eff⟩ st' r' (σ'.book.rowsOf id)) ∨
    (eff.about ≠ some id ∧ st'.about ≠ some id ∧ (st.about = some id → st.Idle)) := by
  obtain ⟨hg', ha'⟩ := hg.turn ha ht hm
  obtain ⟨hch, hab⟩ := Stores.meet_change hg.sound hm
  cases hr : σ.table.row? id with
  | some r =>
    by_cases hc : call.about = some id
    · have hi := (TransactionTable.mem_of_row? hr).2
      subst hi
      obtain ⟨r', hr', hd⟩ := ht.deed hg ha hm hv hc hr
      exact .inl ⟨r, r', rfl, hr', hc, hd⟩
    · refine .inr ⟨fun he => ?_, fun hst => hc (ht.about hm hst).1, fun hst => ?_⟩
      · rcases hab with rfl | hab
        · cases he
        · exact hc (hab.symm.trans he)
      · exact (ht.call_about hst).resolve_left hc
  | none =>
    have hn : eff.about ≠ some id := by
      intro he
      obtain ⟨r, h⟩ := hch.present hg' he
      rw [hr] at h
      cases h
    refine .inr ⟨hn, fun hst => ?_, fun hst => ?_⟩
    · have hc := (ht.about hm hst).1
      rcases hab with rfl | hab
      · cases hch
        obtain ⟨r, h⟩ := ha'.present hst
        rw [hr] at h
        cases h
      · exact hn (hab.trans hc)
    · obtain ⟨r, h⟩ := ha.present hst
      rw [hr] at h
      cases h

end

/-- The ledger holds what the calls of the history applied. -/
theorem Staged.mem_applied {stages : Nat → Stage} {σ : Stores} {past : List Event}
    (h : Staged stages σ past) (row : AppliedRow) :
    row ∈ σ.book.applied ↔ ∃ e ∈ past, e.effect = .applied row := by
  induction h with
  | empty => simp
  | turn hs ht hm ih =>
    rw [(Stores.meet_change hs.grounded.1.sound hm).1.mem_applied, ih, or_comm]
    simp
  | broke hs ih => simp [ih]
  | stop hs ih => exact ih
  | aside hs table rows ih => rw [rows, ih]

end Settlement
