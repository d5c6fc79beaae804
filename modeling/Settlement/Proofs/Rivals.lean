import Settlement.Proofs.Deeds

/-!
Several drivers of one transfer at the same time. A driver works from the step that it loaded, so one
may refund what another is about to credit. Whoever closes the record finds every row of the outcome
applied, and had no other row applied itself, unless another driver did so too. So the ledger holds
the outcome exactly if no other driver went beyond it.
-/

namespace Settlement

def verdict : TransactionStatus → CompensationStatus → List Leg
  | .completed, _ => [.debit, .credit]
  | .failed, .succeeded => [.debit, .refund]
  | .failed, .failed => [.debit]
  | _, _ => []

def Did (past : List Event) (r : TransactionRecord) (p : Nat) (leg : Leg) : Prop :=
  leg.type = r.type ∧
    ∃ row, leg.row? r = some row ∧ ∃ e ∈ past, e.task = p ∧ e.effect = .applied row

/-- The task may close a record with these legs: they are done, and unless another task did more, the
task did no more. -/
def Fair (did : Nat → Leg → Prop) (p : Nat) (legs : List Leg) : Prop :=
  (∀ leg ∈ legs, ∃ q, did q leg) ∧
    ((∀ leg, did p leg → leg ∈ legs) ∨ ∃ q leg, q ≠ p ∧ did q leg ∧ leg ∉ legs)

/-- The task did no more than the step tells of. -/
def Clear (did : Nat → Leg → Prop) (step : TransactionStep) (p : Nat) : Prop :=
  ∀ leg, did p leg → leg = .debit ∧ step ≠ .none

def Stage.Answers (did : Nat → Leg → Prop) (step : TransactionStep) (p : Nat) : Stage → Prop
  | idle _ | taken _ => Clear did step p
  | moving leg _ => (∀ l, did p l → l ∈ leg.before) ∧ (leg.before ≠ [] → step ≠ .none)
  | recording leg _ =>
    (∀ l, did p l → l ∈ leg.before ++ [leg]) ∧ (leg.before ≠ [] → step ≠ .none) ∧ ∃ q, did q leg
  | settling _ status compensation => Fair did p (verdict status compensation)
  | ended => True

def Stepped (did : Nat → Leg → Prop) (step : TransactionStep) : Prop :=
  (step ≠ .none → ∃ q, did q .debit) ∧ (step = .creditDone → ∃ q, did q .credit)

def Event.Closes (id : TransactionId) (e : Event) : Prop := ∃ fin, e.effect = .wrote id (.close fin)

section

variable {did did' : Nat → Leg → Prop} {step step' : TransactionStep} {p : Nat} {legs : List Leg}
  {st st' : Stage} {past : List Event} {r r' q : TransactionRecord} {leg : Leg} {e : Event}
  {rows rows' : List AppliedRow} {row : AppliedRow}

theorem Did.same (hs : q.Same r) : Did past q = Did past r := by
  funext p leg
  unfold Did
  rw [Leg.row?_same hs, hs.type_eq]

theorem did_cons : Did (e :: past) r p leg ↔ Did past r p leg ∨
    (p = e.task ∧ leg.type = r.type ∧ ∃ row, leg.row? r = some row ∧ e.effect = .applied row) := by
  constructor
  · rintro ⟨ht, row, hr, f, hf, hp, he⟩
    rcases List.mem_cons.mp hf with rfl | hf
    · exact .inr ⟨hp.symm, ht, row, hr, he⟩
    · exact .inl ⟨ht, row, hr, f, hf, hp, he⟩
  · rintro (⟨ht, row, hr, f, hf, hp, he⟩ | ⟨rfl, ht, row, hr, he⟩)
    · exact ⟨ht, row, hr, f, List.mem_cons_of_mem _ hf, hp, he⟩
    · exact ⟨ht, row, hr, e, List.mem_cons_self, rfl, he⟩

/-- An event that applies nothing of the record. -/
theorem did_quiet (he : ∀ row, e.effect = .applied row → row.operation.transaction ≠ r.id) :
    Did (e :: past) r = Did past r := by
  funext p leg
  refine propext (did_cons.trans (or_iff_left ?_))
  rintro ⟨_, _, row, hr, h⟩
  exact he row h (Leg.row?_transaction hr)

/-- An event that applies a leg of the record. -/
theorem did_applied (hw : r.payload.WellFormed) (ht : leg.type = r.type)
    (hr : leg.row? r = some row) (he : e.effect = .applied row) (p : Nat) (l : Leg) :
    Did (e :: past) r p l ↔ Did past r p l ∨ (p = e.task ∧ l = leg) := by
  refine did_cons.trans (or_congr_right ⟨?_, ?_⟩)
  · rintro ⟨hp, hlt, x, hx, hex⟩
    rw [he] at hex
    cases hex
    exact ⟨hp, Leg.eq_of_slot hw hlt ht hx hr rfl⟩
  · rintro ⟨hp, rfl⟩
    exact ⟨hp, ht, row, hr, he⟩

theorem Fair.mono (h : Fair did p legs) (hd : ∀ q leg, did q leg → did' q leg)
    (hp : ∀ leg, did' p leg → did p leg) : Fair did' p legs := by
  obtain ⟨hall, hown⟩ := h
  refine ⟨fun leg hl => (hall leg hl).imp fun q => hd q leg, ?_⟩
  rcases hown with hown | ⟨q, leg, hq, hdid, hn⟩
  · exact .inl fun leg hl => hown leg (hp leg hl)
  · exact .inr ⟨q, leg, hq, hd q leg hdid, hn⟩

theorem Clear.mono (h : Clear did step p) (hp : ∀ leg, did' p leg → did p leg)
    (hs : step ≠ .none → step' ≠ .none) : Clear did' step' p := by
  intro leg hl
  obtain ⟨heq, hstep⟩ := h leg (hp leg hl)
  exact ⟨heq, hs hstep⟩

/-- What others do does not concern a task. -/
theorem Stage.Answers.mono (h : st.Answers did step p) (hd : ∀ q leg, did q leg → did' q leg)
    (hp : ∀ leg, did' p leg → did p leg) (hs : step ≠ .none → step' ≠ .none) :
    st.Answers did' step' p := by
  cases st with
  | idle last => exact Clear.mono h hp hs
  | taken id => exact Clear.mono h hp hs
  | moving leg tx => exact ⟨fun l hl => h.1 l (hp l hl), fun hb => hs (h.2 hb)⟩
  | recording leg tx =>
    exact ⟨fun l hl => h.1 l (hp l hl), fun hb => hs (h.2.1 hb), h.2.2.imp fun q => hd q leg⟩
  | settling id status compensation => exact Fair.mono h hd hp
  | ended => trivial

theorem Stepped.mono (h : Stepped did step) (hd : ∀ q leg, did q leg → did' q leg) :
    Stepped did' step :=
  ⟨fun hs => (h.1 hs).imp fun q => hd q _, fun hs => (h.2 hs).imp fun q => hd q _⟩

theorem Clear.begins (h : Clear did r.step p) (hs : Stepped did r.step) (ht : r.type = .transfer) :
    (Stage.begins r).Answers did r.step p := by
  unfold Stage.begins
  split
  next hn => exact ⟨fun l hl => absurd hn (h l hl).2, fun hb => absurd rfl hb⟩
  next hd => exact ⟨fun l hl => by simp [Leg.before, (h l hl).1], fun _ => by simp [hd]⟩
  next hc =>
    refine ⟨fun l hl => ?_, .inl fun l hl => by simp [verdict, (h l hl).1]⟩
    simp only [verdict, List.mem_cons, List.not_mem_nil, or_false] at hl
    rcases hl with rfl | rfl
    · exact hs.1 (by simp [hc])
    · exact hs.2 hc
  next hd => cases ht.symm.trans hd
  next hw => cases ht.symm.trans hw

/-- A driver whose attempts are used up overlooks a credit that another one has recorded. -/
theorem Clear.resumes (h : Clear did r.step p) (hs : Stepped did r.step) (ht : r.type = .transfer) :
    (Stage.resumes r).Answers did r.step p := by
  unfold Stage.resumes
  by_cases hd : r.step = .debitDone
  · rw [if_pos ⟨ht, hd⟩]
    exact ⟨fun l hl => by simp [Leg.before, (h l hl).1], fun _ => by simp [hd]⟩
  · rw [if_neg fun hc => hd hc.2]
    refine ⟨fun l hl => by simp [verdict] at hl, ?_⟩
    by_cases hn : r.step = .none
    · exact .inl fun l hl => absurd hn (h l hl).2
    · have hc : r.step = .creditDone := by
        cases hr : r.step with
        | none => exact absurd hr hn
        | debitDone => exact absurd hr hd
        | creditDone => rfl
      obtain ⟨q, hq⟩ := hs.2 hc
      refine .inr ⟨q, .credit, ?_, hq, by simp [verdict]⟩
      rintro rfl
      cases (h _ hq).1

theorem answers_moved {tx : TransactionRecord} (ht : leg.type = .transfer)
    (hown : ∀ l, did p l → l ∈ leg.before ++ [leg]) (hb : leg.before ≠ [] → step ≠ .none)
    (hdone : ∃ q, did q leg) (hs : Stepped did step) :
    (Stage.moved leg tx).Answers did step p := by
  cases leg with
  | debit | credit => exact ⟨hown, hb, hdone⟩
  | refund =>
    refine ⟨fun l hl => ?_, .inl hown⟩
    simp only [verdict, List.mem_cons, List.not_mem_nil, or_false] at hl
    rcases hl with rfl | rfl
    · exact hs.1 (hb (by simp [Leg.before]))
    · exact hdone
  | deposit | withdraw => cases ht

theorem answers_refused {tx : TransactionRecord} (ht : leg.type = .transfer)
    (hown : ∀ l, did p l → l ∈ leg.before) (hb : leg.before ≠ [] → step ≠ .none)
    (hs : Stepped did step) : (Stage.refused leg tx).Answers did step p := by
  cases leg with
  | debit => exact ⟨fun l hl => by simp [verdict] at hl, .inl hown⟩
  | credit => exact ⟨hown, hb⟩
  | refund =>
    refine ⟨fun l hl => ?_, .inl hown⟩
    cases List.mem_singleton.mp hl
    exact hs.1 (hb (by simp [Leg.before]))
  | deposit | withdraw => cases ht

theorem answers_recorded {tx : TransactionRecord} (hl : leg.step?.isSome)
    (hown : ∀ l, did p l → l ∈ leg.before ++ [leg]) (hn : step ≠ .none)
    (hdone : ∃ q, did q leg) (hs : Stepped did step) :
    (Stage.recorded leg tx).Answers did step p := by
  cases leg with
  | debit => exact ⟨hown, fun _ => hn⟩
  | credit =>
    refine ⟨fun l hl => ?_, .inl hown⟩
    simp only [verdict, List.mem_cons, List.not_mem_nil, or_false] at hl
    rcases hl with rfl | rfl
    · exact hs.1 hn
    · exact hdone
  | refund | deposit | withdraw => cases hl

theorem Leg.step?_ne_none (hl : leg.step? = some step) : step ≠ .none := by
  rintro rfl
  exact absurd (Leg.none_lt_step? hl) (by decide)

/-- A step that is stored is one whose leg is done. -/
theorem Stepped.advance (hs : Stepped did step) (hl : leg.step? = some step')
    (hdone : ∃ q, did q leg) (hb : leg.before ≠ [] → step ≠ .none) : Stepped did step' := by
  cases leg with
  | debit =>
    cases hl
    exact ⟨fun _ => hdone, fun hc => by cases hc⟩
  | credit =>
    cases hl
    exact ⟨fun _ => hs.1 (hb (by simp [Leg.before])), fun _ => hdone⟩
  | refund | deposit | withdraw => cases hl

/-- An open record bars a step only if it says as much already. -/
theorem step_of_barred (ho : r.status.isTerminal = false) (hl : leg.step? = some step)
    (hb : (Write.advance step).allows r = false) : r.step ≠ .none := by
  intro hn
  rw [leg.advance_allowed hl ho hn] at hb
  contradiction

/-- What one turn on a transfer keeps up for the task that makes it, as long as the record is open. -/
theorem Deed.answers (h : Deed r rows st e st' r' rows') (hp : e.task = p)
    (hw : r.payload.WellFormed) (ht : r.type = .transfer)
    (hf : e.reply.storeFails = false) (ho : r'.status.isTerminal = false)
    (hrows : ∀ row ∈ rows, ∀ leg : Leg, leg.type = r.type → leg.row? r = some row →
      ∃ q, Did past r q leg)
    (hs : Stepped (Did past r) r.step)
    (hat : st.about = some r.id → st.Answers (Did past r) r.step p)
    (haway : st.about ≠ some r.id → Clear (Did past r) r.step p) :
    Stepped (Did (e :: past) r') r'.step ∧
      (st'.about = some r.id → st'.Answers (Did (e :: past) r') r'.step p) ∧
      (st'.about ≠ some r.id → Clear (Did (e :: past) r') r'.step p) := by
  have hidle : ∀ last, st = .idle last → Clear (Did past r) r.step p := by
    rintro last rfl
    by_cases ha : (Stage.idle last).about = some r.id
    · exact hat ha
    · exact haway ha
  cases h with
  | pass effect =>
    rw [did_quiet (by simp [effect])]
    exact ⟨hs, fun ha => (by cases ha), fun _ => hidle _ rfl⟩
  | take now effect =>
    rw [← Did.same ((TransactionRecord.Same.refl r).apply .take now), did_quiet (by simp [effect])]
    exact ⟨hs, fun _ => hidle _ rfl, fun hn => absurd rfl hn⟩
  | load effect =>
    rw [did_quiet (by simp [effect])]
    exact ⟨hs, fun _ => Clear.begins (hat rfl) hs ht, fun hn => absurd (Stage.begins_about r) hn⟩
  | unread effect =>
    rw [did_quiet (by simp [effect])]
    exact ⟨hs, fun ha => (by cases ha), fun _ => hat rfl⟩
  | reload effect same =>
    rw [did_quiet (by simp [effect])]
    exact ⟨hs, fun _ => Clear.resumes (hidle _ rfl) hs ht,
      fun hn => absurd (Stage.resumes_about r) hn⟩
  | @applied _ leg tx row same type hr fresh effect =>
    have hid := congrArg some same.id
    obtain ⟨hown, hb⟩ := hat hid
    have hd : ∀ q l, Did (e :: past) r q l ↔ Did past r q l ∨ (q = e.task ∧ l = leg) :=
      did_applied hw type hr effect
    have hs' : Stepped (Did (e :: past) r) r.step := hs.mono fun q l hl => (hd q l).mpr (.inl hl)
    refine ⟨hs', fun _ => ?_, fun hn => absurd ((Stage.moved_about leg tx).trans hid) hn⟩
    have hdone : ∃ q, Did (e :: past) r q leg := ⟨p, (hd p leg).mpr (.inr ⟨hp.symm, rfl⟩)⟩
    refine answers_moved (type.trans ht) (fun l hl => ?_) hb hdone hs'
    rcases (hd p l).mp hl with hl | ⟨_, rfl⟩
    · exact List.mem_append_left _ (hown l hl)
    · exact List.mem_append_right _ List.mem_cons_self
  | @replayed _ leg tx row same type hr known effect =>
    have hid := congrArg some same.id
    obtain ⟨hown, hb⟩ := hat hid
    rw [did_quiet (by simp [effect])]
    refine ⟨hs, fun _ => ?_, fun hn => absurd ((Stage.moved_about leg tx).trans hid) hn⟩
    exact answers_moved (type.trans ht) (fun l hl => List.mem_append_left _ (hown l hl)) hb
      (hrows row known leg type hr) hs
  | @contended _ leg tx same type effect =>
    have hid := congrArg some same.id
    obtain ⟨hown, hb⟩ := hat hid
    rw [did_quiet (by simp [effect])]
    refine ⟨hs, fun _ l hl => ?_, fun hn => absurd hid hn⟩
    have hm := hown l hl
    refine ⟨?_, hb (List.ne_nil_of_mem hm)⟩
    cases leg with
    | credit | refund => exact List.mem_singleton.mp hm
    | debit | deposit | withdraw => cases hm
  | @refused _ leg tx same type effect =>
    have hid := congrArg some same.id
    obtain ⟨hown, hb⟩ := hat hid
    rw [did_quiet (by simp [effect])]
    exact ⟨hs, fun _ => answers_refused (type.trans ht) hown hb hs,
      fun hn => absurd ((Stage.refused_about leg tx).trans hid) hn⟩
  | @recorded _ leg tx step now same type hl effect allowed =>
    have hid := congrArg some same.id
    obtain ⟨hown, hb, hdone⟩ := hat hid
    rw [← Did.same ((TransactionRecord.Same.refl r).apply (.advance step) now),
      did_quiet (by simp [effect])]
    have hs' := hs.advance hl hdone hb
    refine ⟨hs', fun _ => ?_, fun hn => absurd ((Stage.recorded_about leg tx).trans hid) hn⟩
    exact answers_recorded (by simp [hl]) hown (Leg.step?_ne_none hl) hdone hs'
  | @barred _ leg tx step same type hl effect barred =>
    have hid := congrArg some same.id
    obtain ⟨hown, hb, hdone⟩ := hat hid
    rw [did_quiet (by simp [effect])]
    refine ⟨hs, fun _ => ?_, fun hn => absurd ((Stage.recorded_about leg tx).trans hid) hn⟩
    exact answers_recorded (by simp [hl]) hown (step_of_barred ho hl barred) hdone hs
  | unrecorded same type effect failed =>
    rw [hf] at failed
    contradiction
  | @close _ fin now effect allowed final =>
    have hc : fin.status.isTerminal = false := ho
    rw [final] at hc
    contradiction
  | unclosed effect why =>
    rcases why with hc | hc
    · rw [ho] at hc
      contradiction
    · rw [hf] at hc
      contradiction

/-- Nothing is written on a terminal record, and only a driver that is at it moves its money. -/
theorem Deed.frozen (h : Deed r rows st e st' r' rows') (hc : r.status.isTerminal = true) :
    r' = r ∧ (st.about ≠ some r.id →
      st'.about ≠ some r.id ∧ ∀ row, e.effect = .applied row → row.operation.transaction ≠ r.id) := by
  cases h with
  | take _ _ allowed | recorded _ _ _ _ _ allowed | close _ _ allowed =>
    rw [Write.open_of_allows allowed] at hc
    contradiction
  | pass effect => exact ⟨rfl, fun _ => ⟨by simp [Stage.about], by simp [effect]⟩⟩
  | load | unread | unclosed => exact ⟨rfl, fun hn => absurd rfl hn⟩
  | reload _ same | applied same | replayed same | contended same | refused same | barred same
  | unrecorded same => exact ⟨rfl, fun hn => absurd (congrArg some same.id) hn⟩

/-- A record is closed by a task that is about to settle it so. -/
theorem Deed.closing (h : Deed r rows st e st' r' rows') (ho : r.status.isTerminal = false)
    (hc : r'.status.isTerminal = true) : ∃ fin now, e.effect = .wrote r.id (.close fin) ∧
      st = .settling r.id fin.status fin.compensation ∧ st' = .idle none ∧
      r' = (Write.close fin).apply now r := by
  cases h with
  | @close _ fin now effect => exact ⟨fin, now, effect, rfl, rfl, rfl⟩
  | take => cases hc
  | recorded => exact absurd hc (by simp [Write.apply, ho])
  | pass | load | unread | reload | applied | replayed | contended | refused | barred | unrecorded
  | unclosed => exact absurd hc (by simp [ho])

theorem Deed.opened (h : Deed r rows st e st' r' rows') (ho : r'.status.isTerminal = false) :
    r.status.isTerminal = false := by
  cases hc : r.status.isTerminal with
  | false => rfl
  | true => rw [(h.frozen hc).1, hc] at ho; contradiction

theorem Deed.step_ne_none (h : Deed r rows st e st' r' rows') (hs : r.step ≠ .none) :
    r'.step ≠ .none := by
  cases h with
  | recorded now _ _ hl => exact Leg.step?_ne_none hl
  | take | close | pass | load | unread | reload | applied | replayed | contended | refused | barred
  | unrecorded | unclosed => exact hs

theorem Deed.not_ended (h : Deed r rows st e st' r' rows') : st ≠ .ended := by
  rintro rfl
  cases h

end

/-- What the drivers of one transfer keep up between them. -/
structure Rivals (r : TransactionRecord) (stages : Nat → Stage) (past : List Event) : Prop where
  stepped : r.status.isTerminal = false → Stepped (Did past r) r.step
  answers : r.status.isTerminal = false → ∀ p, stages p ≠ .ended →
    ((stages p).about = some r.id → (stages p).Answers (Did past r) r.step p) ∧
    ((stages p).about ≠ some r.id → Clear (Did past r) r.step p)
  closed : r.status.isTerminal = true → ∃ e ∈ past, e.Closes r.id ∧
    (stages e.task).about ≠ some r.id ∧
    Fair (Did past r) e.task (verdict r.status r.compensation)

namespace Rivals

section

variable {r r' : TransactionRecord} {stages : Nat → Stage} {past past' : List Event} {st : Stage}
  {e : Event} {p : Nat} {rows rows' : List AppliedRow}

/-- A record that was not there before the event. -/
theorem inserted {σ : Stores} (hst : Staged stages σ past) (hq : σ.table.row? r.id = none)
    (hnew : ∃ new now, r = TransactionTable.fresh new r.id now)
    (he : ∀ row, e.effect = .applied row → row.operation.transaction ≠ r.id)
    (hab : st.about ≠ some r.id) : Rivals r (Function.update stages p st) (e :: past) := by
  obtain ⟨hg, ha⟩ := hst.grounded
  obtain ⟨new, now, hf⟩ := hnew
  have ho : r.status.isTerminal = false := by
    rw [hf]
    rfl
  have hs : r.step = .none := by
    rw [hf]
    rfl
  have hn : ∀ q leg, ¬Did (e :: past) r q leg := by
    intro q leg hd
    rw [did_quiet he] at hd
    obtain ⟨_, row, hl, f, hfm, _, heff⟩ := hd
    have hmem : row ∈ σ.book.rowsOf r.id := Book.mem_rowsOf.mpr
      ⟨(hst.mem_applied row).mpr ⟨f, hfm, heff⟩, Leg.row?_transaction hl⟩
    rw [hg.rowsOf_eq_nil hq] at hmem
    cases hmem
  have haway : ∀ q, (Function.update stages p st q).about ≠ some r.id := by
    intro q hb
    rw [(about_update hab hb).2] at hb
    obtain ⟨q₀, hq₀⟩ := (ha q).present hb
    rw [hq] at hq₀
    cases hq₀
  refine ⟨fun _ => ?_, fun _ q _ => ⟨fun hb => absurd hb (haway q), fun _ leg hl => ?_⟩, fun hc => ?_⟩
  · rw [hs]
    exact ⟨fun h => absurd rfl h, fun h => by cases h⟩
  · exact absurd hl (hn q leg)
  · rw [ho] at hc
    contradiction

/-- One task leaves the record, or was not at it, and the others go on. -/
theorem aside (hx : Rivals r stages past) (hd : Did past' r = Did past r)
    (hsub : ∀ e ∈ past, e ∈ past') (hst : st.about ≠ some r.id)
    (hidle : st = .ended ∨
      (stages p ≠ .ended ∧ ((stages p).about = some r.id → (stages p).Idle))) :
    Rivals r (Function.update stages p st) past' := by
  refine ⟨fun ho => by rw [hd]; exact hx.stepped ho, fun ho q hq => ?_, fun hc => ?_⟩
  · rw [hd]
    by_cases hqp : q = p
    · subst hqp
      rw [Function.update_self] at hq ⊢
      refine ⟨fun ha => absurd ha hst, fun _ => ?_⟩
      obtain ⟨hne, hidle⟩ := hidle.resolve_left hq
      obtain ⟨hat, haway⟩ := hx.answers ho q hne
      by_cases ha : (stages q).about = some r.id
      · have hans := hat ha
        obtain ⟨last, hl⟩ := hidle ha
        rw [hl] at hans
        exact hans
      · exact haway ha
    · rw [Function.update_of_ne hqp] at hq ⊢
      exact hx.answers ho q hq
  · obtain ⟨f, hf, hcl, ha, hfair⟩ := hx.closed hc
    refine ⟨f, hsub f hf, hcl, ?_, hd ▸ hfair⟩
    by_cases hfp : f.task = p
    · rw [hfp, Function.update_self]
      exact hst
    · rwa [Function.update_of_ne hfp]

theorem did_kept (hd : Deed r rows (stages p) e st r' rows') (q : Nat) (leg : Leg)
    (hl : Did past r q leg) : Did (e :: past) r' q leg := by
  rw [Did.same hd.keeps] at hl
  exact did_cons.mpr (.inl hl)

theorem did_others (hd : Deed r rows (stages p) e st r' rows') {q : Nat} (hq : q ≠ e.task)
    (leg : Leg) (hl : Did (e :: past) r' q leg) : Did past r q leg := by
  rw [Did.same hd.keeps]
  exact (did_cons.mp hl).resolve_right fun h => hq h.1

/-- Who closed a record has left it, and a turn that closes it is one that may. -/
theorem deed_closed (hx : Rivals r stages past) (hd : Deed r rows (stages p) e st r' rows')
    (hp : e.task = p) (hc : r'.status.isTerminal = true) :
    ∃ f ∈ e :: past, f.Closes r'.id ∧
      (Function.update stages p st f.task).about ≠ some r'.id ∧
      Fair (Did (e :: past) r') f.task (verdict r'.status r'.compensation) := by
  cases hr : r.status.isTerminal with
  | true =>
    obtain ⟨rfl, hleft⟩ := hd.frozen hr
    obtain ⟨f, hfm, hcl, ha, hfair⟩ := hx.closed hr
    refine ⟨f, List.mem_cons_of_mem _ hfm, hcl, ?_, hfair.mono (did_kept hd) ?_⟩
    · by_cases hfp : f.task = p
      · rw [hfp] at ha ⊢
        rw [Function.update_self]
        exact (hleft ha).1
      · rwa [Function.update_of_ne hfp]
    · by_cases hfp : f.task = p
      · rw [hfp] at ha
        rw [did_quiet (hleft ha).2]
        exact fun _ h => h
      · exact did_others hd (hp ▸ hfp)
  | false =>
    obtain ⟨fin, now, heff, hst, rfl, rfl⟩ := hd.closing hr hc
    refine ⟨e, List.mem_cons_self, ⟨fin, heff⟩, ?_, ?_⟩
    · rw [hp, Function.update_self]
      simp [Stage.about]
    · have hans := (hx.answers hr p hd.not_ended).1 (by rw [hst]; rfl)
      rw [hst] at hans
      rw [← Did.same ((TransactionRecord.Same.refl r).apply (.close fin) now),
        did_quiet (by simp [heff]), hp]
      exact hans

/-- One task makes a turn on the record. -/
theorem deed (hx : Rivals r stages past) (hd : Deed r rows (stages p) e st r' rows')
    (hp : e.task = p) (hw : r.payload.WellFormed) (ht : r.type = .transfer)
    (hf : e.reply.storeFails = false)
    (hrows : ∀ row ∈ rows, ∀ leg : Leg, leg.type = r.type → leg.row? r = some row →
      ∃ q, Did past r q leg) :
    Rivals r' (Function.update stages p st) (e :: past) := by
  have hid : r'.id = r.id := hd.keeps.id.symm
  have hmine : r'.status.isTerminal = false →
      Stepped (Did (e :: past) r') r'.step ∧
        (st.about = some r.id → st.Answers (Did (e :: past) r') r'.step p) ∧
        (st.about ≠ some r.id → Clear (Did (e :: past) r') r'.step p) := by
    intro ho
    have ho' := hd.opened ho
    obtain ⟨hat, haway⟩ := hx.answers ho' p hd.not_ended
    exact hd.answers hp hw ht hf ho hrows (hx.stepped ho') hat haway
  refine ⟨fun ho => (hmine ho).1, fun ho q hq => ?_, hx.deed_closed hd hp⟩
  rw [hid]
  by_cases hqp : q = p
  · subst hqp
    rw [Function.update_self]
    exact (hmine ho).2
  · rw [Function.update_of_ne hqp] at hq ⊢
    obtain ⟨hat, haway⟩ := hx.answers (hd.opened ho) q hq
    have hothers : ∀ leg, Did (e :: past) r' q leg → Did past r q leg := did_others hd (hp ▸ hqp)
    exact ⟨fun ha => (hat ha).mono (did_kept hd) hothers hd.step_ne_none,
      fun ha => (haway ha).mono hothers hd.step_ne_none⟩

end
end Rivals

/-- What the drivers of a transfer keep up is kept up by any number of tasks, in any order. -/
theorem Staged.rivals {stages : Nat → Stage} {σ : Stores} {past : List Event}
    (h : Staged stages σ past) (hs : past.all (·.reply.steady) = true) {id : TransactionId}
    {r : TransactionRecord} (hr : σ.table.row? id = some r) (ht : r.type = .transfer) :
    Rivals r stages past := by
  induction h generalizing r with
  | empty => cases hr
  | @turn stages σ σ' past p call a st reply eff hst hturn hm ih =>
    simp only [List.all_cons, Bool.and_eq_true] at hs
    have hsteady : reply.arrives = true ∧ reply.storeFails = false := by
      simpa [Reply.steady] using hs.1
    obtain ⟨hg, ha⟩ := hst.grounded
    have hch := (Stores.meet_change hg.sound hm).1
    have hi := (TransactionTable.mem_of_row? hr).2
    rcases hg.turn_cases (ha p) hturn hm hsteady.1 p id with
      ⟨q, q', hq, hq', _, hd⟩ | ⟨he, habout, hidle⟩
    · cases Stores.row?_unique hq' hr
      have hty : q.type = .transfer := hd.keeps.type_eq.trans ht
      refine (ih hs.2 hq hty).deed hd rfl (hg.wellFormed_of_row? hq) hty hsteady.2 ?_
      intro row hrow leg hleg hl
      obtain ⟨f, hf, heff⟩ := (hst.mem_applied row).mp (Book.mem_rowsOf.mp hrow).1
      exact ⟨f.task, hleg, row, hl, f, hf, rfl, heff⟩
    · subst hi
      have hquiet : ∀ row, eff = .applied row → row.operation.transaction ≠ r.id := by
        rintro row rfl hrow
        exact he (congrArg some hrow)
      cases hq : σ.table.row? r.id with
      | some q =>
        cases Stores.row?_unique hr (hch.frame he hq).1
        refine (ih hs.2 hq ht).aside (did_quiet hquiet) (fun _ hf => List.mem_cons_of_mem _ hf)
          habout (.inr ⟨?_, hidle⟩)
        intro hend
        rw [hend] at hturn
        cases hturn
      | none => exact Rivals.inserted hst hq (hch.fresh hq hr).1 hquiet habout
  | broke hst ih =>
    simp only [List.all_cons, Bool.and_eq_true] at hs
    exact (ih hs.2 hr ht).aside (did_quiet (by simp)) (fun _ hf => List.mem_cons_of_mem _ hf)
      (by simp [Stage.about]) (.inl rfl)
  | stop hst ih =>
    exact (ih hs hr ht).aside rfl (fun _ hf => hf) (by simp [Stage.about]) (.inl rfl)
  | aside hst table rows ih =>
    rw [table] at hr
    exact ih hs hr ht

def TransactionRecord.outcome (r : TransactionRecord) (source target : AccountId) :
    List (OperationId × AccountId) :=
  match r.status, r.compensation with
  | .completed, _ => [(.forward r.id, source), (.forward r.id, target)]
  | .failed, .succeeded => [(.forward r.id, source), (.compensation r.id, source)]
  | .failed, .failed => [(.forward r.id, source)]
  | _, _ => []

section

variable {r : TransactionRecord} {source target : AccountId} {leg : Leg} {row : AppliedRow}

/-- The outcome of a transfer is what the legs of its verdict take. -/
theorem outcome_eq (hs : r.source = some source) (ht : r.target = some target) :
    r.outcome source target =
      ((verdict r.status r.compensation).filterMap (·.row? r)).map AppliedRow.slot := by
  have hd : Leg.debit.row? r = some ⟨.forward r.id, source, -r.amount⟩ := Leg.row?_of_account hs
  have hc : Leg.credit.row? r = some ⟨.forward r.id, target, r.targetAmount⟩ :=
    Leg.row?_of_account ht
  have hf : Leg.refund.row? r = some ⟨.compensation r.id, source, r.amount⟩ :=
    Leg.row?_of_account hs
  unfold TransactionRecord.outcome
  split
  next h => simp [h, verdict, hd, hc, AppliedRow.slot]
  next h hn => simp [h, hn, verdict, hd, hf, AppliedRow.slot]
  next h hn => simp [h, hn, verdict, hd, AppliedRow.slot]
  next hn hp hq =>
    have hv : verdict r.status r.compensation = [] := by
      unfold verdict
      split <;> simp_all
    rw [hv]
    rfl

theorem mem_outcome (hs : r.source = some source) (ht : r.target = some target)
    {slot : OperationId × AccountId} : slot ∈ r.outcome source target ↔
      ∃ leg ∈ verdict r.status r.compensation, ∃ row, leg.row? r = some row ∧ row.slot = slot := by
  simp only [outcome_eq hs ht, List.mem_map, List.mem_filterMap]
  constructor
  · rintro ⟨row, ⟨leg, hl, hr⟩, rfl⟩
    exact ⟨leg, hl, row, hr, rfl⟩
  · rintro ⟨leg, hl, row, hr, rfl⟩
    exact ⟨row, ⟨leg, hl, hr⟩, rfl⟩

theorem outcome_nodup (hne : source ≠ target) : (r.outcome source target).Nodup := by
  unfold TransactionRecord.outcome
  split <;> simp [hne, OperationId.forward, OperationId.compensation]

theorem type_of_mem_verdict {status : TransactionStatus} {compensation : CompensationStatus}
    (h : leg ∈ verdict status compensation) : leg.type = .transfer := by
  unfold verdict at h
  split at h
  · simp only [List.mem_cons, List.not_mem_nil, or_false] at h
    rcases h with rfl | rfl <;> rfl
  · simp only [List.mem_cons, List.not_mem_nil, or_false] at h
    rcases h with rfl | rfl <;> rfl
  · cases List.mem_singleton.mp h
    rfl
  · cases h

end

/-- The legs of a record are told apart by their slots. -/
theorem leg_of_slots {P Q : Leg → Prop} {r : TransactionRecord} (hw : r.payload.WellFormed)
    (hp : ∀ leg, P leg → leg.type = r.type) (hq : ∀ leg, Q leg → leg.type = r.type)
    (h : ∀ slot, (∃ leg, P leg ∧ ∃ row, leg.row? r = some row ∧ row.slot = slot) →
      ∃ leg, Q leg ∧ ∃ row, leg.row? r = some row ∧ row.slot = slot) {leg : Leg} (hl : P leg) :
    Q leg := by
  obtain ⟨row, hr⟩ := Leg.exists_row? hw (hp leg hl)
  obtain ⟨k, hk, x, hx, hs⟩ := h row.slot ⟨leg, hl, row, hr, rfl⟩
  rwa [Leg.eq_of_slot hw (hp leg hl) (hq k hk) hr hx hs.symm]

/-- If a task may close the record so, then what was done is what it says unless others did more. -/
theorem Fair.exact_iff {did : Nat → Leg → Prop} {p : Nat} {legs : List Leg} (h : Fair did p legs) :
    (∀ leg, (∃ q, did q leg) ↔ leg ∈ legs) ↔ ∀ q leg, q ≠ p → did q leg → leg ∈ legs := by
  obtain ⟨hall, hown⟩ := h
  constructor
  · intro he q leg _ hd
    exact (he leg).mp ⟨q, hd⟩
  · intro hothers leg
    refine ⟨?_, hall leg⟩
    rintro ⟨q, hd⟩
    by_cases hq : q = p
    · subst hq
      refine hown.resolve_right ?_ leg hd
      rintro ⟨k, l, hk, hl, hn⟩
      exact hn (hothers k l hk hl)
    · exact hothers q leg hq hd

namespace Staged

section

variable {stages : Nat → Stage} {σ : Stores} {past : List Event} {r : TransactionRecord}
  {source target : AccountId}

theorem mem_slotsOf (h : Staged stages σ past) (hr : σ.table.row? r.id = some r)
    (slot : OperationId × AccountId) : slot ∈ σ.book.slotsOf r.id ↔
      ∃ leg, (∃ p, Did past r p leg) ∧ ∃ row, leg.row? r = some row ∧ row.slot = slot := by
  constructor
  · intro hs
    obtain ⟨row, hm, rfl⟩ := List.mem_map.mp hs
    obtain ⟨leg, ht, hl⟩ := h.grounded.1.leg_of_row hr hm
    obtain ⟨e, he, heff⟩ := (h.mem_applied row).mp (Book.mem_rowsOf.mp hm).1
    exact ⟨leg, ⟨e.task, ht, row, hl, e, he, rfl, heff⟩, row, hl, rfl⟩
  · rintro ⟨leg, ⟨p, _, x, hx, e, he, _, heff⟩, row, hl, rfl⟩
    cases hx.symm.trans hl
    exact List.mem_map_of_mem (Book.mem_rowsOf.mpr
      ⟨(h.mem_applied x).mpr ⟨e, he, heff⟩, Leg.row?_transaction hl⟩)

/-- The ledger holds the outcome of a transfer if what was done is its verdict. -/
theorem perm_outcome_iff (h : Staged stages σ past) (hr : σ.table.row? r.id = some r)
    (hty : r.type = .transfer) (hs : r.source = some source) (ht : r.target = some target) :
    (σ.book.slotsOf r.id).Perm (r.outcome source target) ↔
      ∀ leg, (∃ p, Did past r p leg) ↔ leg ∈ verdict r.status r.compensation := by
  have hg := h.grounded.1
  have hw := hg.wellFormed_of_row? hr
  obtain ⟨a, b, ha, hb, hne⟩ := hw.transfer hty
  cases ha.symm.trans hs
  cases hb.symm.trans ht
  have hdid : ∀ leg, (∃ p, Did past r p leg) → leg.type = r.type := by
    rintro leg ⟨p, hl, _⟩
    exact hl
  have hverdict : ∀ leg, leg ∈ verdict r.status r.compensation → leg.type = r.type :=
    fun leg hl => (type_of_mem_verdict hl).trans hty.symm
  have hnodup : (σ.book.slotsOf r.id).Nodup := hg.once.sublist (List.filter_sublist.map _)
  rw [List.perm_ext_iff_of_nodup hnodup (outcome_nodup hne)]
  simp only [h.mem_slotsOf hr, mem_outcome hs ht]
  constructor
  · intro heq leg
    exact ⟨leg_of_slots hw hdid hverdict fun slot => (heq slot).mp,
      leg_of_slots hw hverdict hdid fun slot => (heq slot).mpr⟩
  · intro heq slot
    simp only [heq]

/-- What the others did, seen in the history. -/
theorem others_iff (h : Staged stages σ past) (hr : σ.table.row? r.id = some r)
    (hty : r.type = .transfer) (hs : r.source = some source) (ht : r.target = some target)
    (p : Nat) :
    (∀ q leg, q ≠ p → Did past r q leg → leg ∈ verdict r.status r.compensation) ↔
      ∀ e ∈ past, e.task ≠ p → ∀ row, e.effect = .applied row →
        row.operation.transaction = r.id → row.slot ∈ r.outcome source target := by
  have hg := h.grounded.1
  have hw := hg.wellFormed_of_row? hr
  constructor
  · intro ho e he hp row heff hrow
    obtain ⟨leg, hl, hlr⟩ := hg.leg_of_row hr
      (Book.mem_rowsOf.mpr ⟨(h.mem_applied row).mpr ⟨e, he, heff⟩, hrow⟩)
    have hd : Did past r e.task leg := ⟨hl, row, hlr, e, he, rfl, heff⟩
    exact (mem_outcome hs ht).mpr ⟨leg, ho e.task leg hp hd, row, hlr, rfl⟩
  · rintro ho q leg hq ⟨hl, row, hlr, e, he, rfl, heff⟩
    obtain ⟨k, hk, x, hx, hslot⟩ :=
      (mem_outcome hs ht).mp (ho e he hq row heff (Leg.row?_transaction hlr))
    have hkt : k.type = r.type := (type_of_mem_verdict hk).trans hty.symm
    rwa [Leg.eq_of_slot hw hl hkt hlr hx hslot.symm]

end
end Staged

/-- However many drivers a transfer has had, once it is closed the ledger holds what its state calls
for, unless a driver other than the one that closed it had a row applied that the state does not call
for. -/
theorem outcome_stands_iff {s : Service} {m : Machine} (h : Reachable s m)
    (hs : m.history.all (·.reply.steady) = true) {r : TransactionRecord}
    (hr : r ∈ m.stores.table.rows) (hty : r.type = .transfer) (hc : r.status.isTerminal = true)
    {source target : AccountId} (hsource : r.source = some source)
    (htarget : r.target = some target) :
    ∃ e ∈ m.history, e.Closes r.id ∧
      ((m.stores.book.slotsOf r.id).Perm (r.outcome source target) ↔
        ∀ f ∈ m.history, f.task ≠ e.task → ∀ row, f.effect = .applied row →
          row.operation.transaction = r.id → row.slot ∈ r.outcome source target) := by
  obtain ⟨stages, hm⟩ := h.matched
  have hrow := hm.staged.grounded.1.sound.row?_of_mem hr
  obtain ⟨e, he, hcl, _, hfair⟩ := (hm.staged.rivals hs hrow hty).closed hc
  refine ⟨e, he, hcl, ?_⟩
  rw [hm.staged.perm_outcome_iff hrow hty hsource htarget, hfair.exact_iff]
  exact hm.staged.others_iff hrow hty hsource htarget e.task

def Flow.returned : Flow Q A α → Bool
  | done _ => true
  | note _ rest => rest.returned
  | panic _ | ask .. => false

/-- A recovery takes up a transfer whose request is about to credit. Its own credit is refused and its
refund applied; the request then credits and completes the transfer. -/
def overtakenRefund : List Move :=
  debitedTransfer ++
    [.start (.recover 1), .answer 1 (.served 0), .answer 1 (.served 0),
      .answer 1 (.refused (.ledger (.unavailable "down"))), .answer 1 (.served 0),
      .answer 0 (.served 0), .answer 0 (.served 0), .answer 0 (.served 0), .answer 0 (.served 0),
      .answer 1 (.served 0)]

theorem refund_held_of_overtakenRefund :
    ∃ m, Machine.play plainService {} overtakenRefund = some m ∧
      m.tasks.all Flow.returned = true ∧ m.history.all (·.reply.steady) = true ∧
      ∃ r ∈ m.stores.table.rows, r.type = .transfer ∧ r.status = .completed ∧
        (OperationId.compensation r.id, 1) ∈ m.stores.book.slotsOf r.id := by
  obtain ⟨m, hm, hr⟩ := Option.map_eq_some_iff.mp (show
    (Machine.play plainService {} overtakenRefund).map (fun m =>
      m.stores.table.rows.map fun r => (r.id, r.type, r.status)) =
      some [(1, .transfer, .completed)] by decide +kernel)
  have ht := Machine.eq_of_play (fun m => m.tasks.all Flow.returned) hm
    (show _ = some true by decide +kernel)
  have hs := Machine.eq_of_play (fun m => m.history.all (·.reply.steady)) hm
    (show _ = some true by decide +kernel)
  have hslots := Machine.eq_of_play (fun m => m.stores.book.slotsOf 1) hm
    (show _ = some [(.forward 1, 1), (.compensation 1, 1), (.forward 1, 2)] by decide +kernel)
  obtain ⟨r, hrow, hfields⟩ : ∃ r ∈ m.stores.table.rows,
      (r.id, r.type, r.status) = ((1 : Int), .transfer, .completed) :=
    List.mem_map.mp (by simp [hr])
  simp only [Prod.mk.injEq] at hfields
  obtain ⟨hid, hty, hstatus⟩ := hfields
  refine ⟨m, hm, ht, hs, r, hrow, hty, hstatus, ?_⟩
  rw [hid]
  simp [hslots]

theorem outcome_stands_iff_overtakenRefund :
    ∃ m, Machine.play plainService {} overtakenRefund = some m ∧
      ∃ e ∈ m.history, e.Closes 1 ∧ ∃ f ∈ m.history, f.task ≠ e.task ∧
        ∃ row, f.effect = .applied row ∧ row.operation.transaction = 1 := by
  obtain ⟨m, hm, hr⟩ := Option.map_eq_some_iff.mp (show
    (Machine.play plainService {} overtakenRefund).map (fun m =>
      m.stores.table.rows.map fun r => ((r.id, r.type, r.status), r.source, r.target)) =
      some [((1, .transfer, .completed), some 1, some 2)] by decide +kernel)
  have hs := Machine.eq_of_play (fun m => m.history.all (·.reply.steady)) hm
    (show _ = some true by decide +kernel)
  have hslots := Machine.eq_of_play (fun m => m.stores.book.slotsOf 1) hm
    (show _ = some [(.forward 1, 1), (.compensation 1, 1), (.forward 1, 2)] by decide +kernel)
  obtain ⟨r, hrow, hfields⟩ : ∃ r ∈ m.stores.table.rows,
      ((r.id, r.type, r.status), r.source, r.target) =
        (((1 : Int), .transfer, .completed), some 1, some 2) :=
    List.mem_map.mp (by simp [hr])
  simp only [Prod.mk.injEq] at hfields
  obtain ⟨⟨hid, hty, hstatus⟩, hsource, htarget⟩ := hfields
  obtain ⟨e, he, hcl, hiff⟩ := outcome_stands_iff (Reachable.empty.play hm) hs hrow hty
    (by rw [hstatus]; rfl) hsource htarget
  rw [hid] at hcl hiff
  refine ⟨m, hm, e, he, hcl, ?_⟩
  by_contra hno
  have hp := hiff.mpr fun f hf hne row heff hrow =>
    absurd ⟨f, hf, hne, row, heff, hrow⟩ hno
  have hlen := hp.length_eq
  simp [hslots, TransactionRecord.outcome, hstatus] at hlen

end Settlement
