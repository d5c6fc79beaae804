import Settlement.Proofs.Deeds

/-!
Credit and refund of one transfer, where the drivers of a record take turns. The record tells the next
driver which of the two it may ask for, so both are applied only if a driver applied one of them and
then stored neither the step nor the end of the record.
-/

namespace Settlement

def Event.worksOn (e : Event) : Option TransactionId :=
  if e.call.writes then e.call.about else none

def lastOn (id : TransactionId) (past : List Event) : Option Nat :=
  (past.find? fun e => e.worksOn == some id).map (·.task)

/-- No task comes back to a record that another one has worked on since. -/
def takesTurns : List Event → Bool
  | [] => true
  | e :: past =>
    takesTurns past &&
      match e.worksOn with
      | none => true
      | some id =>
        lastOn id past == some e.task ||
          past.all fun f => !(f.worksOn == some id && f.task == e.task)

/-- After the event a driver of the record neither credits nor refunds. -/
def Event.settles (id : TransactionId) (e : Event) : Bool :=
  match e.effect with
  | .wrote other (.advance step) => other == id && step == .creditDone
  | .wrote other (.close _) => other == id
  | _ => false

def Event.fills (slot : OperationId × AccountId) (e : Event) : Prop :=
  ∃ row, e.effect = .applied row ∧ row.slot = slot

/-- One of two slots was filled after the other, and nothing between settled the record. -/
def Crossed (id : TransactionId) (x y : OperationId × AccountId) (history : List Event) : Prop :=
  ∃ later second between first past, history = later ++ second :: between ++ first :: past ∧
    ((first.fills x ∧ second.fills y) ∨ (first.fills y ∧ second.fills x)) ∧
    ∀ e ∈ between, e.settles id = false

theorem takesTurns_tail {e : Event} {past : List Event} (h : takesTurns (e :: past) = true) :
    takesTurns past = true := by
  simp only [takesTurns, Bool.and_eq_true] at h
  exact h.1

theorem takesTurns_last {e f : Event} {past : List Event} {id : TransactionId}
    (h : takesTurns (e :: past) = true) (he : e.worksOn = some id) (hf : f ∈ past)
    (hw : f.worksOn = some id) (ht : f.task = e.task) : lastOn id past = some e.task := by
  simp only [takesTurns, Bool.and_eq_true, he, Bool.or_eq_true, beq_iff_eq] at h
  refine h.2.resolve_right fun ha => ?_
  have := List.all_eq_true.mp ha f hf
  simp [hw, ht] at this

theorem lastOn_cons_self {e : Event} {past : List Event} {id : TransactionId}
    (h : e.worksOn = some id) : lastOn id (e :: past) = some e.task := by
  simp [lastOn, h]

theorem lastOn_cons_ne {e : Event} {past : List Event} {id : TransactionId}
    (h : e.worksOn ≠ some id) : lastOn id (e :: past) = lastOn id past := by
  simp [lastOn, h]

def Leg.Due (r : TransactionRecord) : Leg → Prop
  | debit => r.step = .none
  | credit | refund => r.step = .debitDone
  | deposit | withdraw => True

def Stage.Agrees (r : TransactionRecord) : Stage → Prop
  | idle _ | taken _ => r.status.isTerminal = false
  | moving leg _ | recording leg _ => r.status.isTerminal = false ∧ leg.Due r
  | settling _ _ _ | ended => True

def TransactionRecord.Settled (r : TransactionRecord) : Prop :=
  r.status.isTerminal = true ∨ r.step = .creditDone

section

variable {r r' : TransactionRecord} {rows rows' : List AppliedRow} {st st' : Stage} {e : Event}

theorem Stage.begins_agrees (h : r.status.isTerminal = false) : (begins r).Agrees r := by
  unfold begins
  split
  next hs => exact ⟨h, hs⟩
  next hs => exact ⟨h, hs⟩
  next => trivial
  next => exact ⟨h, trivial⟩
  next => exact ⟨h, trivial⟩

theorem Stage.resumes_agrees (h : r.status.isTerminal = false) : (resumes r).Agrees r := by
  unfold resumes
  split
  next hs => exact ⟨h, hs.2⟩
  next => trivial

theorem Stage.moved_agrees {leg : Leg} {tx : TransactionRecord}
    (h : r.status.isTerminal = false ∧ leg.Due r) : (moved leg tx).Agrees r := by
  cases leg with
  | debit | credit => exact h
  | refund | deposit | withdraw => trivial

theorem Stage.refused_agrees {leg : Leg} {tx : TransactionRecord}
    (h : r.status.isTerminal = false ∧ leg.Due r) : (refused leg tx).Agrees r := by
  cases leg with
  | credit => exact h
  | debit | refund | deposit | withdraw => trivial

theorem TransactionStep.not_creditDone_lt (step : TransactionStep) : ¬creditDone < step := by
  cases step <;> decide

theorem Deed.agrees (h : Deed r rows st e st' r' rows') (ha : st.about = some r.id → st.Agrees r)
    (hb : st'.about = some r.id) : st'.Agrees r' := by
  cases h with
  | pass | unread | close | unclosed => cases hb
  | take => rfl
  | load => exact Stage.begins_agrees (ha rfl)
  | reload _ same => exact Stage.resumes_agrees (ha (congrArg some same.id))
  | applied same => exact Stage.moved_agrees (ha (congrArg some same.id))
  | replayed same => exact Stage.moved_agrees (ha (congrArg some same.id))
  | contended same => exact (ha (congrArg some same.id)).1
  | refused same => exact Stage.refused_agrees (ha (congrArg some same.id))
  | @recorded _ leg _ step now same _ hs =>
    obtain ⟨ho, _⟩ := ha (congrArg some same.id)
    cases leg with
    | debit =>
      cases hs
      exact ⟨ho, rfl⟩
    | credit => trivial
    | refund | deposit | withdraw => cases hs
  | @barred _ leg _ step same _ hs _ hn =>
    obtain ⟨ho, hd⟩ := ha (congrArg some same.id)
    cases leg with
    | debit =>
      cases hs
      rw [Leg.debit.advance_allowed rfl ho hd] at hn
      contradiction
    | credit => trivial
    | refund | deposit | withdraw => cases hs
  | unrecorded same =>
    unfold Stage.failed
    split
    · exact (ha (congrArg some same.id)).1
    · trivial

theorem Deed.settled (h : Deed r rows st e st' r' rows') (hr : r.Settled) : r'.Settled := by
  cases h with
  | pass | load | unread | reload | applied | replayed | contended | refused | barred
  | unrecorded | unclosed => exact hr
  | take now effect allowed =>
    have ho := Write.open_of_allows allowed
    exact hr.imp (fun ht => by rw [ho] at ht; cases ht) fun hs => hs
  | @recorded _ _ _ step now _ _ _ _ allowed =>
    have ho := Write.open_of_allows allowed
    rcases hr with ht | hs
    · rw [ho] at ht
      cases ht
    · simp [Write.allows, hs, TransactionStep.not_creditDone_lt] at allowed
  | close now effect allowed final => exact .inl final

theorem Deed.settles (h : Deed r rows st e st' r' rows') (he : e.settles r.id = true) :
    r'.Settled := by
  unfold Event.settles at he
  cases h with
  | pass effect | load effect | unread effect | reload effect | take _ effect
  | applied _ _ _ _ effect | replayed _ _ _ _ effect | contended _ _ effect | refused _ _ effect
  | barred _ _ _ effect | unrecorded _ _ effect | unclosed effect => simp [effect] at he
  | recorded now _ _ _ effect =>
    simp only [effect, beq_self_eq_true, Bool.true_and, beq_iff_eq] at he
    exact .inr he
  | close now _ _ final => exact .inl final

/-- A driver whose turn it is has a credit or a refund applied only before the record settles. -/
theorem Deed.unsettled {leg : Leg} {row : AppliedRow} (h : Deed r rows st e st' r' rows')
    (hw : r.payload.WellFormed) (ha : st.about = some r.id → st.Agrees r)
    (he : e.effect = .applied row) (hrow : leg.row? r = some row) (hl : leg = .credit ∨ leg = .refund)
    (ht : r.type = .transfer) : ¬r.Settled := by
  cases h with
  | pass effect | load effect | unread effect | reload effect | take _ effect
  | replayed _ _ _ _ effect | contended _ _ effect | refused _ _ effect | recorded _ _ _ _ effect
  | barred _ _ _ effect | unrecorded _ _ effect | close _ effect | unclosed effect =>
    rw [effect] at he
    cases he
  | @applied _ k _ x same type hr fresh effect =>
    rw [effect] at he
    cases he
    have hlt : leg.type = r.type := by
      rw [ht]
      rcases hl with rfl | rfl <;> rfl
    cases Leg.eq_of_slot hw type hlt hr hrow rfl
    obtain ⟨ho, hd⟩ := ha (congrArg some same.id)
    have hstep : r.step = .debitDone := by
      rcases hl with rfl | rfl <;> exact hd
    rintro (hs | hs)
    · rw [ho] at hs
      cases hs
    · rw [hstep] at hs
      cases hs

end

def Event.Decides (r : TransactionRecord) (e : Event) : Prop :=
  ∃ (leg : Leg) (row : AppliedRow), (leg = .credit ∨ leg = .refund) ∧ leg.row? r = some row ∧
    e.effect = .applied row

structure Exclusive (id : TransactionId) (stages : Nat → Stage) (σ : Stores) (past : List Event) :
    Prop where
  seen : ∀ p, (stages p).about = some id → ∃ f ∈ past, f.worksOn = some id ∧ f.task = p
  agrees : ∀ p r, lastOn id past = some p → (stages p).about = some id →
    σ.table.row? id = some r → (stages p).Agrees r
  settled : ∀ f ∈ past, f.settles id = true → ∃ r, σ.table.row? id = some r ∧ r.Settled
  apart : ∀ later e before, past = later ++ e :: before → ∀ r, σ.table.row? id = some r →
    r.type = .transfer → e.Decides r → ∀ f ∈ before, f.settles id = false

theorem Event.Decides.about {r : TransactionRecord} {e : Event} (h : e.Decides r) :
    e.effect.about = some r.id := by
  obtain ⟨leg, row, _, hrow, he⟩ := h
  rw [he]
  exact congrArg some (Leg.row?_transaction hrow)

theorem Event.Decides.same {r r' : TransactionRecord} {e : Event} (h : e.Decides r')
    (hs : r.Same r') : e.Decides r := by
  obtain ⟨leg, row, hl, hrow, he⟩ := h
  exact ⟨leg, row, hl, (Leg.row?_same hs leg).trans hrow, he⟩

theorem Event.about_of_settles {id : TransactionId} {e : Event} (h : e.settles id = true) :
    e.effect.about = some id := by
  unfold settles at h
  split at h
  next he =>
    simp only [Bool.and_eq_true, beq_iff_eq] at h
    rw [he, ← h.1]
    rfl
  next he =>
    rw [he, ← beq_iff_eq.mp h]
    rfl
  next => contradiction

namespace Exclusive

section

variable {id : TransactionId} {stages : Nat → Stage} {σ σ' : Stores} {past : List Event} {e : Event}
  {st : Stage} {p : Nat} {r : TransactionRecord}

/-- The record of a past event on it is stored. -/
theorem row?_of_decides (hs : Staged stages σ past) (he : e ∈ past) (hd : e.Decides r) :
    ∃ q, σ.table.row? r.id = some q := by
  obtain ⟨leg, row, _, hrow, heff⟩ := hd
  have hg := hs.grounded.1
  obtain ⟨q, hq, k, _, hk⟩ := hg.legs row ((hs.mem_applied row).mpr ⟨e, he, heff⟩)
  have hi : q.id = r.id := (Leg.row?_transaction hk).symm.trans (Leg.row?_transaction hrow)
  exact ⟨q, hi ▸ hg.sound.row?_of_mem hq⟩

/-- A driver that stops is at no record. -/
theorem ended (hx : Exclusive id stages σ past) (p : Nat) :
    Exclusive id (Function.update stages p .ended) σ past := by
  have hq : ∀ q, (Function.update stages p .ended q).about = some id →
      Function.update stages p .ended q = stages q := by
    intro q hab
    exact (about_update (by simp [Stage.about]) hab).2
  refine ⟨fun q hab => hx.seen q ?_, fun q r hl hab hr => ?_, hx.settled, hx.apart⟩
  · rwa [hq q hab] at hab
  · have heq := hq q hab
    rw [heq] at hab ⊢
    exact hx.agrees q r hl hab hr

/-- An event that leaves the record alone, and whose task does not stay with it. -/
theorem aloof (hx : Exclusive id stages σ past) (hs : Staged stages σ past) (hp : e.task = p)
    (hst : st.about ≠ some id) (he : e.effect.about ≠ some id)
    (hr : ∀ q, σ.table.row? id = some q → σ'.table.row? id = some q) :
    Exclusive id (Function.update stages p st) σ' (e :: past) := by
  refine ⟨fun q hab => ?_, fun q r' hl hab hr' => ?_, ?_, ?_⟩
  · rw [(about_update hst hab).2] at hab
    obtain ⟨f, hf, hw⟩ := hx.seen q hab
    exact ⟨f, List.mem_cons_of_mem _ hf, hw⟩
  · obtain ⟨hne, heq⟩ := about_update hst hab
    rw [heq] at hab ⊢
    have hl' : lastOn id past = some q := by
      by_cases hw : e.worksOn = some id
      · rw [lastOn_cons_self hw, hp] at hl
        exact absurd (Option.some.inj hl).symm hne
      · rwa [lastOn_cons_ne hw] at hl
    obtain ⟨q₀, hq₀⟩ := (hs.grounded.2 q).present hab
    cases (hr q₀ hq₀).symm.trans hr'
    exact hx.agrees q r' hl' hab hq₀
  · intro f hf hset
    rcases List.mem_cons.mp hf with rfl | hf
    · exact absurd (Event.about_of_settles hset) he
    · obtain ⟨q, hq, hs⟩ := hx.settled f hf hset
      exact ⟨q, hr q hq, hs⟩
  · intro later d before heq r' hr' hty hd
    have hi := (TransactionTable.mem_of_row? hr').2
    cases later with
    | nil =>
      cases heq
      exact absurd (hi ▸ hd.about) he
    | cons x later =>
      obtain ⟨_, htail⟩ := List.cons.inj heq
      have hm : d ∈ past := by simp [htail]
      obtain ⟨q, hq⟩ := row?_of_decides hs hm hd
      rw [hi] at hq
      cases (hr q hq).symm.trans hr'
      exact hx.apart later d before htail r' hq hty hd

/-- Nobody comes back to a record that another task has worked on since. -/
theorem turn_last (hx : Exclusive id stages σ past) (ht : takesTurns (e :: past) = true)
    (hw : e.worksOn = some id ∨ lastOn id past = some e.task)
    (hab : (stages e.task).about = some id) : lastOn id past = some e.task := by
  rcases hw with hw | hl
  · obtain ⟨f, hf, hfw, hft⟩ := hx.seen e.task hab
    exact takesTurns_last ht hw hf hfw hft
  · exact hl

/-- Whoever works on the record last knows what it says. -/
theorem turn_agrees (hx : Exclusive id stages σ past) (ht : takesTurns (e :: past) = true)
    (hw : e.worksOn = some id ∨ lastOn id past = some e.task) (hr : σ.table.row? id = some r)
    (hab : (stages e.task).about = some id) : (stages e.task).Agrees r :=
  hx.agrees e.task r (hx.turn_last ht hw hab) hab hr

end

section

variable {id : TransactionId} {stages : Nat → Stage} {σ σ' : Stores} {past : List Event}
  {st : Stage} {p : Nat} {r r' : TransactionRecord} {rows rows' : List AppliedRow} {call : Call}
  {a : call.Answer} {reply : Reply} {eff : Effect}

theorem worksOn_of_writes (hc : call.about = some id) (hw : call.writes = true) :
    Event.worksOn ⟨p, call, reply, eff⟩ = some id := by
  simp [Event.worksOn, hw, hc]

theorem worksOn_of_reads (hw : call.writes = false) :
    Event.worksOn ⟨p, call, reply, eff⟩ ≠ some id := by
  simp [Event.worksOn, hw]

theorem deed_seen (hx : Exclusive id stages σ past) (hturn : Turn (stages p) call a st)
    (hm : σ.meet call reply = some (.value a, eff, σ')) (hc : call.about = some id) {q : Nat}
    (hab : (Function.update stages p st q).about = some id) :
    ∃ f ∈ ⟨p, call, reply, eff⟩ :: past, f.worksOn = some id ∧ f.task = q := by
  have hold : (stages q).about = some id →
      ∃ f ∈ ⟨p, call, reply, eff⟩ :: past, f.worksOn = some id ∧ f.task = q := by
    intro hb
    obtain ⟨f, hf, hw⟩ := hx.seen q hb
    exact ⟨f, List.mem_cons_of_mem _ hf, hw⟩
  by_cases hqp : q = p
  · subst hqp
    rw [Function.update_self] at hab
    rcases (hturn.about hm hab).2 with hb | hw
    · exact hold hb
    · exact ⟨_, List.mem_cons_self, worksOn_of_writes hc hw, rfl⟩
  · rw [Function.update_of_ne hqp] at hab
    exact hold hab

/-- Whoever worked on the record last knows what it says, be it the driver that makes the turn or one
that waits while the turn is only a look. -/
theorem deed_agrees (hx : Exclusive id stages σ past)
    (ht : takesTurns (⟨p, call, reply, eff⟩ :: past) = true)
    (hm : σ.meet call reply = some (.value a, eff, σ')) (hr : σ.table.row? id = some r)
    (hr' : σ'.table.row? id = some r') (hc : call.about = some id)
    (hd : Deed r rows (stages p) ⟨p, call, reply, eff⟩ st r' rows') {q : Nat}
    (hl : lastOn id (⟨p, call, reply, eff⟩ :: past) = some q)
    (hab : (Function.update stages p st q).about = some id) :
    (Function.update stages p st q).Agrees r' := by
  have hid := (TransactionTable.mem_of_row? hr).2
  by_cases hqp : q = p
  · subst hqp
    rw [Function.update_self] at hab ⊢
    refine hd.agrees (fun hb => hx.turn_agrees ht ?_ hr (hid ▸ hb)) (hid ▸ hab)
    cases hw : call.writes with
    | true => exact .inl (worksOn_of_writes hc hw)
    | false =>
      rw [lastOn_cons_ne (worksOn_of_reads hw)] at hl
      exact .inr hl
  · rw [Function.update_of_ne hqp] at hab ⊢
    cases hw : call.writes with
    | true =>
      rw [lastOn_cons_self (worksOn_of_writes hc hw)] at hl
      exact absurd (Option.some.inj hl).symm hqp
    | false =>
      obtain ⟨_, rfl⟩ := Stores.meet_reads hw hm
      rw [lastOn_cons_ne (worksOn_of_reads hw)] at hl
      exact hx.agrees q r' hl hab hr'

/-- Credit and refund are applied only while nothing has settled the record. -/
theorem deed_unsettled (hx : Exclusive id stages σ past) (hg : σ.Grounded)
    (ht : takesTurns (⟨p, call, reply, eff⟩ :: past) = true)
    (hm : σ.meet call reply = some (.value a, eff, σ')) (hr : σ.table.row? id = some r)
    (hc : call.about = some id) (hty : r.type = .transfer)
    (hd : Deed r rows (stages p) ⟨p, call, reply, eff⟩ st r' rows')
    (hdec : Event.Decides r ⟨p, call, reply, eff⟩) : ∀ f ∈ past, f.settles id = false := by
  obtain ⟨leg, row, hl, hrow, heff⟩ := hdec
  have hid := (TransactionTable.mem_of_row? hr).2
  have hw : call.writes = true := by
    cases hw : call.writes with
    | true => rfl
    | false =>
      rw [show eff = .nothing from (Stores.meet_reads hw hm).1] at heff
      cases heff
  have hagrees : (stages p).about = some r.id → (stages p).Agrees r := fun hab =>
    hx.turn_agrees ht (.inl (worksOn_of_writes hc hw)) hr (hid ▸ hab)
  have hn := hd.unsettled (hg.wellFormed_of_row? hr) hagrees heff hrow hl hty
  intro f hf
  by_contra hset
  obtain ⟨r₀, hr₀, hset⟩ := hx.settled f hf (by simpa using hset)
  cases Stores.row?_unique hr hr₀
  exact hn hset

/-- A deed of the driver whose turn it is. -/
theorem deed (hx : Exclusive id stages σ past) (hg : σ.Grounded)
    (ht : takesTurns (⟨p, call, reply, eff⟩ :: past) = true) (hturn : Turn (stages p) call a st)
    (hm : σ.meet call reply = some (.value a, eff, σ')) (hr : σ.table.row? id = some r)
    (hr' : σ'.table.row? id = some r') (hc : call.about = some id)
    (hd : Deed r rows (stages p) ⟨p, call, reply, eff⟩ st r' rows') :
    Exclusive id (Function.update stages p st) σ' (⟨p, call, reply, eff⟩ :: past) := by
  have hid := (TransactionTable.mem_of_row? hr).2
  refine ⟨fun q hab => hx.deed_seen hturn hm hc hab, fun q r₁ hl hab hr₁ => ?_, ?_, ?_⟩
  · cases Stores.row?_unique hr' hr₁
    exact hx.deed_agrees ht hm hr hr' hc hd hl hab
  · intro f hf hset
    rcases List.mem_cons.mp hf with rfl | hf
    · exact ⟨r', hr', hd.settles (hid ▸ hset)⟩
    · obtain ⟨r₀, hr₀, hset⟩ := hx.settled f hf hset
      cases Stores.row?_unique hr hr₀
      exact ⟨r', hr', hd.settled hset⟩
  · intro later d before heq r₁ hr₁ hty hdec
    cases Stores.row?_unique hr' hr₁
    have hty' : r.type = .transfer := hd.keeps.type_eq.trans hty
    have hdec' := hdec.same hd.keeps
    cases later with
    | nil =>
      cases heq
      exact hx.deed_unsettled hg ht hm hr hc hty' hd hdec'
    | cons x later =>
      obtain ⟨_, htail⟩ := List.cons.inj heq
      exact hx.apart later d before htail r hr hty' hdec'

end
end Exclusive

/-- Where drivers take turns and every answer arrives, what taking turns keeps up is kept up. -/
theorem Staged.exclusive {stages : Nat → Stage} {σ : Stores} {past : List Event}
    (h : Staged stages σ past) (ht : takesTurns past = true)
    (ha : past.all (·.reply.arrives) = true) (id : TransactionId) :
    Exclusive id stages σ past := by
  induction h with
  | empty =>
    refine ⟨fun p h => ?_, fun p r _ h => ?_, by simp, by simp⟩
    · cases h
    · cases h
  | @turn stages σ σ' past p call a st reply eff hs hturn hm ih =>
    simp only [List.all_cons, Bool.and_eq_true] at ha
    have hx := ih (takesTurns_tail ht) ha.2
    obtain ⟨hg, han⟩ := hs.grounded
    have hch := (Stores.meet_change hg.sound hm).1
    rcases hg.turn_cases (han p) hturn hm ha.1 p id with ⟨r, r', hr, hr', hc, hd⟩ | ⟨he, hst, _⟩
    · exact hx.deed hg ht hturn hm hr hr' hc hd
    · exact hx.aloof hs rfl hst he fun q hq => (hch.frame he hq).1
  | @broke stages σ past p call reply hs ih =>
    simp only [List.all_cons, Bool.and_eq_true] at ha
    have hx := ih (takesTurns_tail ht) ha.2
    exact hx.aloof hs rfl (by simp [Stage.about]) (by simp [Effect.about]) fun _ h => h
  | @stop stages σ past p hs ih =>
    exact (ih ht ha).ended p
  | aside hs table rows ih =>
    have hx := ih ht ha
    refine ⟨hx.seen, ?_, ?_, ?_⟩
    · rw [table]
      exact hx.agrees
    · rw [table]
      exact hx.settled
    · rw [table]
      exact hx.apart

theorem split_of_mem {α : Type} {l : List α} {x y : α} (hx : x ∈ l) (hy : y ∈ l) (hne : x ≠ y) :
    ∃ later second between first past, l = later ++ second :: between ++ first :: past ∧
      ((first = x ∧ second = y) ∨ (first = y ∧ second = x)) := by
  obtain ⟨front, back, rfl⟩ := List.append_of_mem hx
  rcases List.mem_append.mp hy with hy | hy
  · obtain ⟨later, between, rfl⟩ := List.append_of_mem hy
    exact ⟨later, y, between, x, back, by simp, .inl ⟨rfl, rfl⟩⟩
  · obtain ⟨between, past, rfl⟩ := List.append_of_mem ((List.mem_cons.mp hy).resolve_left hne.symm)
    exact ⟨front, x, between, y, past, by simp, .inr ⟨rfl, rfl⟩⟩

/-- A filled slot of the record was filled by a credit or refund of it. -/
theorem Staged.filled {stages : Nat → Stage} {σ : Stores} {past : List Event} {r : TransactionRecord}
    {row : AppliedRow} (h : Staged stages σ past) (leg : Leg) (hr : σ.table.row? r.id = some r)
    (ht : leg.type = r.type) (hrow : leg.row? r = some row)
    (hs : row.slot ∈ σ.book.applied.map AppliedRow.slot) : ∃ e ∈ past, e.effect = .applied row :=
  (h.mem_applied row).mp (Book.mem_rowsOf.mp (h.grounded.1.row_of_slot hr ht hrow hs)).1

/-- Where drivers take turns, credit and refund of a transfer are both applied exactly if nothing
settled the record between them. -/
theorem both_held_iff_crossed {s : Service} {m : Machine} (h : Reachable s m)
    (ht : takesTurns m.history = true) (ha : m.history.all (·.reply.arrives) = true)
    {r : TransactionRecord} (hr : r ∈ m.stores.table.rows) (hty : r.type = .transfer)
    {source target : AccountId} (hs : r.source = some source) (hta : r.target = some target) :
    ((OperationId.forward r.id, target) ∈ m.stores.book.applied.map AppliedRow.slot ∧
      (OperationId.compensation r.id, source) ∈ m.stores.book.applied.map AppliedRow.slot) ↔
    Crossed r.id (.forward r.id, target) (.compensation r.id, source) m.history := by
  obtain ⟨stages, hm⟩ := h.matched
  have hrow := hm.staged.grounded.1.sound.row?_of_mem hr
  have hx := hm.staged.exclusive ht ha r.id
  have hcredit : Leg.credit.row? r = some ⟨.forward r.id, target, r.targetAmount⟩ :=
    Leg.row?_of_account hta
  have hrefund : Leg.refund.row? r = some ⟨.compensation r.id, source, r.amount⟩ :=
    Leg.row?_of_account hs
  constructor
  · rintro ⟨hc, hf⟩
    obtain ⟨x, hxm, hxe⟩ := hm.staged.filled .credit hrow hty.symm hcredit hc
    obtain ⟨y, hym, hye⟩ := hm.staged.filled .refund hrow hty.symm hrefund hf
    have hne : x ≠ y := by
      rintro rfl
      rw [hxe] at hye
      cases hye
    have hdx : x.Decides r := ⟨.credit, _, .inl rfl, hcredit, hxe⟩
    have hdy : y.Decides r := ⟨.refund, _, .inr rfl, hrefund, hye⟩
    obtain ⟨later, second, between, first, past, heq, hwhich⟩ := split_of_mem hxm hym hne
    have hd : second.Decides r := by
      rcases hwhich with ⟨_, rfl⟩ | ⟨_, rfl⟩
      · exact hdy
      · exact hdx
    refine ⟨later, second, between, first, past, heq, ?_, fun e he => ?_⟩
    · rcases hwhich with ⟨rfl, rfl⟩ | ⟨rfl, rfl⟩
      · exact .inl ⟨⟨_, hxe, rfl⟩, _, hye, rfl⟩
      · exact .inr ⟨⟨_, hye, rfl⟩, _, hxe, rfl⟩
    · rw [List.append_assoc, List.cons_append] at heq
      exact hx.apart later second _ heq r hrow hty hd e (List.mem_append_left _ he)
  · rintro ⟨later, second, between, first, past, heq, hwhich, _⟩
    have hheld : ∀ e ∈ m.history, ∀ slot, e.fills slot →
        slot ∈ m.stores.book.applied.map AppliedRow.slot := by
      rintro e he slot ⟨row, heff, rfl⟩
      exact List.mem_map_of_mem ((hm.staged.mem_applied row).mpr ⟨e, he, heff⟩)
    have hfirst : first ∈ m.history := by simp [heq]
    have hsecond : second ∈ m.history := by simp [heq]
    rcases hwhich with ⟨h₁, h₂⟩ | ⟨h₁, h₂⟩
    · exact ⟨hheld first hfirst _ h₁, hheld second hsecond _ h₂⟩
    · exact ⟨hheld second hsecond _ h₂, hheld first hfirst _ h₁⟩

/-- The credit is refused and the refund applied, the terminal write fails, and the recovery finds
the transfer as it was before the refund. -/
def forgottenRefund : List Move :=
  debitedTransfer ++
    [.answer 0 (.refused (.ledger (.unavailable "down"))), .answer 0 (.served 0),
      .answer 0 (.refused (.store (.database "down"))), .start (.recover 1), .answer 1 (.served 0),
      .answer 1 (.served 0), .answer 1 (.served 0), .answer 1 (.served 0), .answer 1 (.served 0)]

theorem both_held_of_forgottenRefund :
    ∃ m, Machine.play plainService {} forgottenRefund = some m ∧ takesTurns m.history = true ∧
      m.history.all (·.reply.arrives) = true ∧
      (OperationId.forward 1, 2) ∈ m.stores.book.applied.map AppliedRow.slot ∧
      (OperationId.compensation 1, 1) ∈ m.stores.book.applied.map AppliedRow.slot := by
  obtain ⟨m, hm, he⟩ := Option.map_eq_some_iff.mp (show
    (Machine.play plainService {} forgottenRefund).map (fun m =>
      (takesTurns m.history, m.history.all (·.reply.arrives),
        m.stores.book.applied.map AppliedRow.slot)) =
      some (true, true, [(.forward 1, 1), (.compensation 1, 1), (.forward 1, 2)]) by decide +kernel)
  simp only [Prod.mk.injEq] at he
  exact ⟨m, hm, he.1, he.2.1, by simp [he.2.2], by simp [he.2.2]⟩

theorem both_held_iff_crossed_forgottenRefund :
    ∃ m, Machine.play plainService {} forgottenRefund = some m ∧
      Crossed 1 (.forward 1, 2) (.compensation 1, 1) m.history := by
  obtain ⟨m, hm, hr⟩ := Option.map_eq_some_iff.mp (show
    (Machine.play plainService {} forgottenRefund).map (fun m =>
      m.stores.table.rows.map fun r => (r.id, r.type, r.source, r.target)) =
      some [(1, .transfer, some 1, some 2)] by decide +kernel)
  have ht := Machine.eq_of_play (fun m => takesTurns m.history) hm
    (show _ = some true by decide +kernel)
  have ha := Machine.eq_of_play (fun m => m.history.all (·.reply.arrives)) hm
    (show _ = some true by decide +kernel)
  have hs := Machine.eq_of_play (fun m => m.stores.book.applied.map AppliedRow.slot) hm
    (show _ = some [(.forward 1, 1), (.compensation 1, 1), (.forward 1, 2)] by decide +kernel)
  obtain ⟨r, hrow, hfields⟩ : ∃ r ∈ m.stores.table.rows,
      (r.id, r.type, r.source, r.target) = ((1 : Int), .transfer, some 1, some 2) :=
    List.mem_map.mp (by simp [hr])
  simp only [Prod.mk.injEq] at hfields
  obtain ⟨hid, hty, hsource, htarget⟩ := hfields
  have hx := both_held_iff_crossed (Reachable.empty.play hm) ht ha hrow hty hsource htarget
  rw [hid] at hx
  exact ⟨m, hm, hx.mp (by simp [hs])⟩

end Settlement
