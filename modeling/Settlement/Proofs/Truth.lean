import Settlement.Proofs.Deeds

/-!
What a record tells of the money. Calls come one after the other, the store never fails, and an error
of the ledger means that nothing was moved. Between two calls the state of a record then says which of
its legs the ledger holds.
-/

namespace Settlement

/-- Runs a task alone, each call answered by the next reply, until it ends or breaks off. -/
def Flow.alone : Flow Call Call.Answer Unit → List Reply → Stores → Option Stores
  | .done _, _, σ | .panic _, _, σ => some σ
  | .note _ rest, replies, σ => rest.alone replies σ
  | .ask _ _, [], _ => none
  | .ask call next, reply :: replies, σ =>
    (σ.meet call reply).bind fun (outcome, _, σ) =>
      match outcome with
      | .value a => (next a).alone replies σ
      | .panic _ => some σ

inductive Act where
  | call (job : Job) (replies : List Reply)
  | upkeep (u : Upkeep)

def Act.steady : Act → Bool
  | call _ replies => replies.all Reply.steady
  | upkeep _ => true

namespace Stores

def act (s : Service) (σ : Stores) : Act → Option Stores
  | .call job replies => (job.task s).alone replies σ
  | .upkeep u => some { σ with book := u.apply σ.book }

def live (s : Service) (σ : Stores) : List Act → Option Stores
  | [] => some σ
  | act :: acts => (σ.act s act).bind fun σ => σ.live s acts

end Stores

inductive Tells : OperationType → TransactionStatus → TransactionStep → CompensationStatus →
    List Leg → Prop
  | untouched (h : status.isTerminal = false) : Tells type status .none .none []
  | debited (h : status.isTerminal = false) : Tells .transfer status .debitDone .none [.debit]
  | transferred : Tells .transfer .completed .creditDone .none [.debit, .credit]
  | deposited : Tells .deposit .completed .none .none [.deposit]
  | withdrawn : Tells .withdraw .completed .none .none [.withdraw]
  | unmoved : Tells type .failed .none .none []
  | refunded : Tells .transfer .failed .debitDone .succeeded [.debit, .refund]
  | unrefunded : Tells .transfer .failed .debitDone .failed [.debit]

def TransactionRecord.Tells (r : TransactionRecord) (legs : List Leg) : Prop :=
  Settlement.Tells r.type r.status r.step r.compensation legs

/-- The legs of a record whose driver is at the stage. The record tells of a leg only once it is
recorded, and of a refund only once the record is closed. -/
def Stage.Tells (r : TransactionRecord) (legs : List Leg) : Stage → Prop
  | idle _ | taken _ => r.status.isTerminal = false ∧ r.Tells legs
  | moving leg _ => r.status.isTerminal = false ∧ r.Tells leg.before ∧ legs = leg.before
  | recording leg _ => r.status.isTerminal = false ∧ r.Tells leg.before ∧ legs = leg.before ++ [leg]
  | settling _ status compensation =>
    r.status.isTerminal = false ∧ Settlement.Tells r.type status r.step compensation legs
  | ended => r.Tells legs

/-- The rows of a record are what it tells of, or what its driver makes of that. -/
def Told (st : Stage) (r : TransactionRecord) (rows : List AppliedRow) : Prop :=
  ∃ legs : List Leg, rows = legs.filterMap (·.row? r) ∧
    (st.about = some r.id → st.Tells r legs) ∧ (st.about ≠ some r.id → r.Tells legs)

section

variable {r r' : TransactionRecord} {legs : List Leg} {rows rows' : List AppliedRow}
  {st st' : Stage} {e : Event} {leg : Leg} {status : TransactionStatus}
  {type : OperationType} {step : TransactionStep} {compensation : CompensationStatus}

/-- An open state tells the same by any open status. -/
theorem Tells.reopen (h : Tells type status step compensation legs)
    (ho : status.isTerminal = false) {other : TransactionStatus} (hn : other.isTerminal = false) :
    Tells type other step compensation legs := by
  cases h with
  | untouched => exact .untouched hn
  | debited => exact .debited hn
  | transferred | deposited | withdrawn | unmoved | refunded | unrefunded => cases ho

/-- The legs of a record are legs of its type. -/
theorem Tells.type_eq (h : Tells type status step compensation legs) :
    ∀ leg ∈ legs, leg.type = type := by
  intro leg hl
  cases h with
  | untouched | unmoved => cases hl
  | debited | unrefunded | deposited | withdrawn =>
    cases List.mem_singleton.mp hl
    rfl
  | transferred | refunded =>
    simp only [List.mem_cons, List.not_mem_nil, or_false] at hl
    rcases hl with rfl | rfl <;> rfl

/-- The two states of an open record. -/
theorem Tells.open_cases (h : Tells type status step compensation legs)
    (ho : status.isTerminal = false) :
    compensation = .none ∧
      ((step = .none ∧ legs = []) ∨ (type = .transfer ∧ step = .debitDone ∧ legs = [.debit])) := by
  cases h with
  | untouched => exact ⟨rfl, .inl ⟨rfl, rfl⟩⟩
  | debited => exact ⟨rfl, .inr ⟨rfl, rfl, rfl⟩⟩
  | transferred | deposited | withdrawn | unmoved | refunded | unrefunded => cases ho

/-- An open record that has come to a leg is of the leg's type, and says how far the money is. -/
theorem Tells.step_eq (h : r.Tells leg.before) (ho : r.status.isTerminal = false) :
    r.step = if leg.before = [] then .none else .debitDone := by
  obtain ⟨_, ⟨hs, hl⟩ | ⟨_, hs, hl⟩⟩ := Tells.open_cases h ho
  · rw [if_pos hl, hs]
  · rw [if_neg (by simp [hl]), hs]

theorem Tells.begins (h : r.Tells legs) (ho : r.status.isTerminal = false) :
    (Stage.begins r).Tells r legs := by
  unfold Stage.begins
  obtain ⟨_, ⟨hs, rfl⟩ | ⟨ht, hs, rfl⟩⟩ := Tells.open_cases h ho
  · split
    next => exact ⟨ho, h, rfl⟩
    next hd => cases hs.symm.trans hd
    next hc => cases hs.symm.trans hc
    next => exact ⟨ho, h, rfl⟩
    next => exact ⟨ho, h, rfl⟩
  · split
    next hn => cases hs.symm.trans hn
    next => exact ⟨ho, h, rfl⟩
    next hc => cases hs.symm.trans hc
    next hd => cases ht.symm.trans hd
    next hw => cases ht.symm.trans hw

theorem Tells.resumes (h : r.Tells legs) (ho : r.status.isTerminal = false) :
    (Stage.resumes r).Tells r legs := by
  unfold Stage.resumes
  obtain ⟨_, ⟨hs, rfl⟩ | ⟨ht, hs, rfl⟩⟩ := Tells.open_cases h ho
  · rw [if_neg (by simp [hs])]
    exact ⟨ho, hs ▸ .unmoved⟩
  · rw [if_pos ⟨ht, hs⟩]
    exact ⟨ho, h, rfl⟩

theorem Tells.moved (h : r.Tells leg.before) (ho : r.status.isTerminal = false)
    (ht : leg.type = r.type) {tx : TransactionRecord} :
    (Stage.moved leg tx).Tells r (leg.before ++ [leg]) := by
  have hs := Tells.step_eq h ho
  cases leg with
  | debit | credit => exact ⟨ho, h, rfl⟩
  | refund => exact ⟨ho, ht ▸ hs ▸ .refunded⟩
  | deposit => exact ⟨ho, ht ▸ hs ▸ .deposited⟩
  | withdraw => exact ⟨ho, ht ▸ hs ▸ .withdrawn⟩

theorem Tells.refused (h : r.Tells leg.before) (ho : r.status.isTerminal = false)
    (ht : leg.type = r.type) {tx : TransactionRecord} :
    (Stage.refused leg tx).Tells r leg.before := by
  have hs := Tells.step_eq h ho
  cases leg with
  | credit => exact ⟨ho, h, rfl⟩
  | refund => exact ⟨ho, ht ▸ hs ▸ .unrefunded⟩
  | debit | deposit | withdraw => exact ⟨ho, hs ▸ .unmoved⟩

/-- A leg that is recorded is recorded on an open record that has come to it. -/
theorem Tells.advance_allowed (h : r.Tells leg.before) (ho : r.status.isTerminal = false)
    (hs : leg.step? = some step) : (Write.advance step).allows r = true := by
  have he := Tells.step_eq h ho
  cases leg with
  | debit => exact Leg.debit.advance_allowed hs ho he
  | credit =>
    cases hs
    simp only [Write.allows, ho, he]
    decide
  | refund | deposit | withdraw => cases hs

theorem Tells.recorded (h : r.Tells leg.before) (ho : r.status.isTerminal = false)
    (ht : leg.type = r.type) (hs : leg.step? = some step) (now : Instant)
    {tx : TransactionRecord} :
    (Stage.recorded leg tx).Tells ((Write.advance step).apply now r) (leg.before ++ [leg]) := by
  cases leg with
  | debit =>
    cases hs
    have hd : Settlement.Tells r.type r.status .debitDone r.compensation [.debit] := by
      rw [← ht, (Tells.open_cases h ho).1]
      exact .debited ho
    exact ⟨ho, hd, rfl⟩
  | credit =>
    cases hs
    exact ⟨ho, ht ▸ .transferred⟩
  | refund | deposit | withdraw => cases hs

/-- A leg that a record has not come to is not among its rows. -/
theorem row_notMem {row : AppliedRow} (hw : r.payload.WellFormed) (h : r.Tells leg.before)
    (ht : leg.type = r.type) (hr : leg.row? r = some row) :
    row ∉ leg.before.filterMap (·.row? r) := by
  intro hm
  obtain ⟨k, hk, hkr⟩ := List.mem_filterMap.mp hm
  cases Leg.eq_of_slot hw (Tells.type_eq h k hk) ht hkr hr rfl
  cases leg <;> simp [Leg.before] at hk

theorem filterMap_row?_same {q : TransactionRecord} (hs : q.Same r) (legs : List Leg) :
    legs.filterMap (·.row? q) = legs.filterMap (·.row? r) :=
  List.filterMap_congr fun leg _ => Leg.row?_same hs leg

/-- One turn of the only driver. -/
theorem Deed.told (h : Deed r rows st e st' r' rows') (hw : r.payload.WellFormed)
    (hs : e.reply.storeFails = false) (ht : Told st r rows) : Told st' r' rows' := by
  obtain ⟨legs, rfl, hat, haway⟩ := ht
  cases h with
  | @pass last =>
    refine ⟨legs, rfl, by simp [Stage.about], fun _ => ?_⟩
    by_cases ha : (Stage.idle last).about = some r.id
    · exact (hat ha).2
    · exact haway ha
  | @take last _ now effect allowed =>
    have ho := Write.open_of_allows allowed
    have hr : r.Tells legs := by
      by_cases ha : (Stage.idle last).about = some r.id
      · exact (hat ha).2
      · exact haway ha
    refine ⟨legs, (filterMap_row?_same ((TransactionRecord.Same.refl r).apply _ now) legs), ?_, ?_⟩
    · exact fun _ => ⟨rfl, Tells.reopen hr ho rfl⟩
    · exact fun hn => absurd rfl hn
  | load =>
    obtain ⟨ho, hr⟩ := hat rfl
    exact ⟨legs, rfl, fun _ => Tells.begins hr ho, fun hn => absurd (Stage.begins_about r) hn⟩
  | unread => exact ⟨legs, rfl, by simp [Stage.about], fun _ => (hat rfl).2⟩
  | @reload _ last effect same =>
    obtain ⟨ho, hr⟩ := hat (congrArg some same.id)
    exact ⟨legs, rfl, fun _ => Tells.resumes hr ho, fun hn => absurd (Stage.resumes_about r) hn⟩
  | @applied _ leg tx row same type hr fresh =>
    obtain ⟨ho, htell, rfl⟩ := hat (congrArg some same.id)
    refine ⟨leg.before ++ [leg], by simp [hr], fun _ => Tells.moved htell ho type, fun hn => ?_⟩
    exact absurd ((Stage.moved_about leg tx).trans (congrArg some same.id)) hn
  | @replayed _ leg tx row same type hr known =>
    obtain ⟨ho, htell, rfl⟩ := hat (congrArg some same.id)
    exact absurd known (row_notMem hw htell type hr)
  | @contended _ leg tx same type =>
    obtain ⟨ho, htell, rfl⟩ := hat (congrArg some same.id)
    exact ⟨leg.before, rfl, fun _ => ⟨ho, htell⟩, fun hn => absurd (congrArg some same.id) hn⟩
  | @refused _ leg tx same type =>
    obtain ⟨ho, htell, rfl⟩ := hat (congrArg some same.id)
    refine ⟨leg.before, rfl, fun _ => Tells.refused htell ho type, fun hn => ?_⟩
    exact absurd ((Stage.refused_about leg tx).trans (congrArg some same.id)) hn
  | @recorded _ leg tx step now same type hstep =>
    obtain ⟨ho, htell, rfl⟩ := hat (congrArg some same.id)
    refine ⟨leg.before ++ [leg], filterMap_row?_same ((TransactionRecord.Same.refl r).apply _ now) _,
      fun _ => Tells.recorded htell ho type hstep now, fun hn => ?_⟩
    exact absurd ((Stage.recorded_about leg tx).trans (congrArg some same.id)) hn
  | @barred _ leg tx step same type hstep effect barred =>
    obtain ⟨ho, htell, rfl⟩ := hat (congrArg some same.id)
    rw [Tells.advance_allowed htell ho hstep] at barred
    contradiction
  | unrecorded same type effect failed =>
    rw [hs] at failed
    contradiction
  | @close _ fin now effect allowed final =>
    obtain ⟨ho, htell⟩ := hat rfl
    refine ⟨legs, filterMap_row?_same ((TransactionRecord.Same.refl r).apply _ now) _,
      by simp [Stage.about], fun _ => htell⟩
  | unclosed effect why =>
    obtain ⟨ho, _⟩ := hat rfl
    rcases why with hc | hf
    · rw [ho] at hc
      contradiction
    · rw [hs] at hf
      contradiction

end
namespace Stores

def Truthful (st : Stage) (σ : Stores) : Prop :=
  ∀ id r, σ.table.row? id = some r → Told st r (σ.book.rowsOf id)

/-- A call breaks off where a sum does not fit. -/
theorem meet_breaks {σ σ' : Stores} {call : Call} {reply : Reply} {eff : Effect} {message : String}
    (h : σ.meet call reply = some (.panic message, eff, σ')) :
    (∃ user since, call = .store (.sumSpending user since)) ∨
      ∃ direction account amount operation,
        call = .ledger (.mutate direction account amount operation) := by
  rcases meet_cases h with ⟨_, _, _, hv, _⟩ | ⟨now, real, hc, _, ⟨_, rfl⟩ | ⟨_, _, _, _, hv⟩⟩
  · cases hv
  · cases call with
    | ledger call =>
      cases call with
      | getAccount => cases hc
      | mutate => exact .inr ⟨_, _, _, _, rfl⟩
    | store call =>
      cases call with
      | sumSpending user since => exact .inl ⟨user, since, rfl⟩
      | insert | get | getByKey | markProcessing | advanceStep | finalize | findStuck | history =>
        cases hc
    | limits | categories | rates | now | pause => cases hc
  · cases hv

end Stores

/-- A driver that breaks off is between records or asks for a leg. -/
theorem Flow.Follows.calm {σ σ' : Stores} {st : Stage} {post : α → Stage → Prop} {call : Call}
    {next : call.Answer → Flow Call Call.Answer α} {reply : Reply} {eff : Effect}
    {message : String} (hf : (Flow.ask call next).Follows post st)
    (hm : σ.meet call reply = some (.panic message, eff, σ')) :
    st.Idle ∨ ∃ leg tx, st = .moving leg tx := by
  rcases Stores.meet_breaks hm with ⟨user, since, rfl⟩ | ⟨direction, account, amount, op, rfl⟩
  · obtain ⟨st', ht, _⟩ := hf (.error (.database message)) trivial
    cases ht with
    | look => exact .inl ⟨_, rfl⟩
  · obtain ⟨st', ht, _⟩ := hf (.error (.lockConflict account)) trivial
    cases ht with
    | look hc => cases hc
    | contended | refused => exact .inr ⟨_, _, rfl⟩

namespace Stores.Truthful

section

variable {σ σ' : Stores} {st st' : Stage} {call : Call} {a : call.Answer} {reply : Reply}
  {eff : Effect}

/-- A driver may leave a record unless a leg is done that is not recorded. -/
theorem rest (h : σ.Truthful st) (hc : st.Idle ∨ ∃ leg tx, st = .moving leg tx) :
    σ.Truthful (.idle none) := by
  intro id r hr
  obtain ⟨legs, hrows, hat, haway⟩ := h id r hr
  refine ⟨legs, hrows, by simp [Stage.about], fun _ => ?_⟩
  by_cases ha : st.about = some r.id
  · rcases hc with ⟨last, rfl⟩ | ⟨leg, tx, rfl⟩
    · exact (hat ha).2
    · obtain ⟨_, htell, rfl⟩ := hat ha
      exact htell
  · exact haway ha

/-- What one call of the only driver preserves. -/
theorem turn (h : σ.Truthful st) (hg : σ.Grounded) (ha : st.Anchored σ) (ht : Turn st call a st')
    (hm : σ.meet call reply = some (.value a, eff, σ')) (hs : reply.steady = true) :
    σ'.Truthful st' := by
  simp only [Reply.steady, Bool.and_eq_true, Bool.not_eq_true'] at hs
  intro id r' hr'
  rcases hg.turn_cases ha ht hm hs.1 0 id with ⟨r, q, hr, hq, _, hd⟩ | ⟨he, hst, hidle⟩
  · cases Stores.row?_unique hq hr'
    exact hd.told (hg.wellFormed_of_row? hr) hs.2 (h id r hr)
  have hch := (Stores.meet_change hg.sound hm).1
  have hi := (TransactionTable.mem_of_row? hr').2
  cases hr : σ.table.row? id with
  | some r =>
    obtain ⟨hq, hrows⟩ := hch.frame he hr
    cases Stores.row?_unique hr' hq
    obtain ⟨legs, hl, hat, haway⟩ := h id r' hr
    refine ⟨legs, hrows.trans hl, fun hb => absurd (hi ▸ hb) hst, fun _ => ?_⟩
    by_cases hb : st.about = some r'.id
    · obtain ⟨last, rfl⟩ := hidle (hi ▸ hb)
      exact (hat hb).2
    · exact haway hb
  | none =>
    obtain ⟨⟨new, now, hf⟩, hbook⟩ := hch.fresh hr hr'
    refine ⟨[], ?_, fun hb => absurd (hi ▸ hb) hst, fun _ => ?_⟩
    · rw [hbook, hg.rowsOf_eq_nil hr, List.filterMap_nil]
    · rw [hf]
      exact .untouched rfl

end

/-- What a whole run of the only driver preserves. -/
theorem alone {x : Flow Call Call.Answer Unit} {replies : List Reply} {σ σ' : Stores} {st : Stage}
    (h : σ.Truthful st) (hg : σ.Grounded) (ha : st.Anchored σ)
    (hf : x.Follows (fun _ st => st.Idle) st) (hs : replies.all Reply.steady = true)
    (hx : x.alone replies σ = some σ') : σ'.Grounded ∧ σ'.Truthful (.idle none) := by
  induction x generalizing replies σ st with
  | done =>
    cases hx
    exact ⟨hg, h.rest (.inl hf)⟩
  | panic =>
    cases hx
    exact ⟨hg, h.rest (.inl hf)⟩
  | note e rest ih => exact ih h hg ha hf hs hx
  | ask call next ih =>
    cases replies with
    | nil => cases hx
    | cons reply replies =>
      simp only [List.all_cons, Bool.and_eq_true] at hs
      rw [Flow.alone] at hx
      obtain ⟨⟨outcome, eff, τ⟩, hm, hrun⟩ := Option.bind_eq_some_iff.mp hx
      cases outcome with
      | value a =>
        obtain ⟨st', ht, hnext⟩ := hf a (hg.expects ha hm)
        obtain ⟨hg', ha'⟩ := hg.turn ha ht hm
        exact ih a (h.turn hg ha ht hm hs.1) hg' ha' hnext hs.2 hrun
      | panic message =>
        obtain ⟨_, rfl⟩ := Stores.meet_panic hm
        cases hrun
        exact ⟨hg, h.rest (hf.calm hm)⟩

theorem upkeep {σ : Stores} (h : σ.Truthful (.idle none)) (u : Upkeep) :
    Truthful (.idle none) { σ with book := u.apply σ.book } := by
  intro id r hr
  have hrows : (u.apply σ.book).rowsOf id = σ.book.rowsOf id := by
    unfold Book.rowsOf
    rw [u.apply_applied]
  show Told _ r ((u.apply σ.book).rowsOf id)
  rw [hrows]
  exact h id r hr

/-- Between the acts of a service that has the stores to itself. -/
theorem live {s : Service} {acts : List Act} {σ σ' : Stores} (h : σ.Truthful (.idle none))
    (hg : σ.Grounded) (hs : acts.all Act.steady = true) (hl : σ.live s acts = some σ') :
    σ'.Grounded ∧ σ'.Truthful (.idle none) := by
  induction acts generalizing σ with
  | nil =>
    cases hl
    exact ⟨hg, h⟩
  | cons act acts ih =>
    simp only [List.all_cons, Bool.and_eq_true] at hs
    obtain ⟨τ, hact, hl⟩ := Option.bind_eq_some_iff.mp hl
    have hτ : τ.Grounded ∧ τ.Truthful (.idle none) := by
      cases act with
      | call job replies =>
        exact h.alone hg trivial (job.follows s) hs.1 hact
      | upkeep u =>
        cases hact
        exact ⟨hg.aside rfl (u.apply_applied σ.book), h.upkeep u⟩
    exact ih hτ.2 hτ.1 hs.2 hl

end Stores.Truthful

structure TransferTold (r : TransactionRecord) (source target : AccountId)
    (slots : List (OperationId × AccountId)) : Prop where
  completed : r.status = .completed ↔
    (.forward r.id, source) ∈ slots ∧ (.forward r.id, target) ∈ slots ∧
      ∀ account, (.compensation r.id, account) ∉ slots
  credited : r.status = .completed → r.step = .creditDone
  unmoved : r.status = .failed ∧ r.compensation = .none ↔ r.status = .failed ∧ slots = []
  refunded : r.status = .failed ∧ r.compensation = .succeeded ↔
    r.status = .failed ∧ slots.Perm [(.forward r.id, source), (.compensation r.id, source)]
  unrefunded : r.status = .failed ∧ r.compensation = .failed ↔
    r.status = .failed ∧ slots = [(.forward r.id, source)]
  untouched : r.status.isTerminal = false → r.step = .none → slots = []
  debited : r.status.isTerminal = false → r.step = .debitDone → slots = [(.forward r.id, source)]
  uncredited : r.status.isTerminal = false → r.step ≠ .creditDone

structure SingleTold (r : TransactionRecord) (account : AccountId)
    (slots : List (OperationId × AccountId)) : Prop where
  completed : r.status = .completed ↔ slots = [(.forward r.id, account)]
  unmoved : r.status ≠ .completed → slots = []

theorem ne_of_open {status : TransactionStatus} (h : status.isTerminal = false) :
    status ≠ .completed ∧ status ≠ .failed := by
  constructor <;> rintro rfl <;> cases h

theorem transferTold_of_tells {r : TransactionRecord} {legs : List Leg} {source target : AccountId}
    (h : r.Tells legs) (hty : r.type = .transfer) (hs : r.source = some source)
    (ht : r.target = some target) (hne : source ≠ target) :
    TransferTold r source target ((legs.filterMap (·.row? r)).map AppliedRow.slot) := by
  have hd : Leg.debit.row? r = some ⟨.forward r.id, source, -r.amount⟩ := Leg.row?_of_account hs
  have hc : Leg.credit.row? r = some ⟨.forward r.id, target, r.targetAmount⟩ :=
    Leg.row?_of_account ht
  have hf : Leg.refund.row? r = some ⟨.compensation r.id, source, r.amount⟩ :=
    Leg.row?_of_account hs
  have hphase : OperationId.compensation r.id ≠ .forward r.id := by
    simp [OperationId.compensation, OperationId.forward]
  unfold TransactionRecord.Tells at h
  rw [hty] at h
  generalize hstatus : r.status = status at h
  generalize hstep : r.step = step at h
  generalize hcomp : r.compensation = compensation at h
  cases h with
  | untouched ho =>
    obtain ⟨hnc, hnf⟩ := ne_of_open ho
    constructor <;> simp_all
  | debited ho =>
    obtain ⟨hnc, hnf⟩ := ne_of_open ho
    constructor <;> simp_all [AppliedRow.slot, hne.symm]
  | unmoved => constructor <;> simp_all [TransactionStatus.isTerminal]
  | transferred | refunded | unrefunded =>
    constructor <;> simp_all [AppliedRow.slot, TransactionStatus.isTerminal, hne.symm, hphase.symm]

theorem singleTold_of_tells {r : TransactionRecord} {legs : List Leg} {leg : Leg}
    {account : AccountId} (h : r.Tells legs) (hl : leg = .deposit ∨ leg = .withdraw)
    (hty : r.type = leg.type) (ha : leg.account r.payload = some account) :
    SingleTold r account ((legs.filterMap (·.row? r)).map AppliedRow.slot) := by
  have hrow := Leg.row?_of_account ha
  have hphase : (⟨r.id, leg.phase⟩ : OperationId) = .forward r.id := by
    rcases hl with rfl | rfl <;> rfl
  unfold TransactionRecord.Tells at h
  rw [hty] at h
  generalize hstatus : r.status = status at h
  generalize hstep : r.step = step at h
  generalize hcomp : r.compensation = compensation at h
  have hlegs : (status = .completed ∧ legs = [leg]) ∨ (status ≠ .completed ∧ legs = []) := by
    rcases hl with rfl | rfl
    · cases h with
      | untouched ho => exact .inr ⟨(ne_of_open ho).1, rfl⟩
      | unmoved => exact .inr ⟨by simp, rfl⟩
      | deposited => exact .inl ⟨rfl, rfl⟩
    · cases h with
      | untouched ho => exact .inr ⟨(ne_of_open ho).1, rfl⟩
      | unmoved => exact .inr ⟨by simp, rfl⟩
      | withdrawn => exact .inl ⟨rfl, rfl⟩
  rcases hlegs with ⟨hc, rfl⟩ | ⟨hn, rfl⟩
  · have hslots : (([leg].filterMap (·.row? r)).map AppliedRow.slot) =
        [(.forward r.id, account)] := by
      simp [hrow, AppliedRow.slot, hphase]
    rw [hslots]
    exact ⟨by simp [hstatus, hc], fun hn => absurd (hstatus.trans hc) hn⟩
  · exact ⟨by simp [hstatus, hn], fun _ => rfl⟩

/-- Between the acts of a service that has the stores to itself, with a store that never fails and a
ledger whose errors mean that nothing moved, every record tells which of its rows are applied. -/
theorem records_tell_truth {s : Service} {acts : List Act} {σ : Stores}
    (h : Stores.live s {} acts = some σ) (hs : acts.all Act.steady = true)
    {r : TransactionRecord} (hr : r ∈ σ.table.rows) :
    match r.type with
    | .transfer => ∃ source target, r.source = some source ∧ r.target = some target ∧
        TransferTold r source target (σ.book.slotsOf r.id)
    | .deposit => ∃ target, r.target = some target ∧ SingleTold r target (σ.book.slotsOf r.id)
    | .withdraw => ∃ source, r.source = some source ∧
        SingleTold r source (σ.book.slotsOf r.id) := by
  obtain ⟨hg, ht⟩ := Stores.Truthful.live (fun _ _ hr => by cases hr) Stores.grounded_empty hs h
  have hw := hg.wellFormed r hr
  obtain ⟨legs, hrows, _, htells⟩ := ht r.id r (hg.sound.row?_of_mem hr)
  have htells : r.Tells legs := htells (by simp [Stage.about])
  unfold Book.slotsOf
  rw [hrows]
  cases hty : r.type with
  | transfer =>
    obtain ⟨source, target, hsource, htarget, hne⟩ := hw.transfer hty
    exact ⟨source, target, hsource, htarget, transferTold_of_tells htells hty hsource htarget hne⟩
  | deposit =>
    obtain ⟨target, _, htarget⟩ := hw.deposit hty
    exact ⟨target, htarget, singleTold_of_tells htells (.inl rfl) hty htarget⟩
  | withdraw =>
    obtain ⟨source, hsource, _⟩ := hw.withdraw hty
    exact ⟨source, hsource, singleTold_of_tells htells (.inr rfl) hty hsource⟩

/-- A transfer of 40 whose debit meets a conflict first, whose credit is refused and whose refund is
applied. -/
def refundedTransfer : List Act :=
  [.upkeep (.openAccount 1 .usd hundred), .upkeep (.openAccount 1 .usd .zero),
    .call (.transfer ⟨1, 2, forty, some 1⟩ 1 "a")
      [.served 0, .served 0, .served 0,
        .elsewhere (.categories (.find 1)) (.ok (some ⟨1, none, "FOOD"⟩)),
        .elsewhere (.limits (.find 1)) (.ok (some ⟨1, hundred, hundred⟩)),
        .elsewhere .now (0 : Int), .served 0, .served 0, .served 0, .served 0,
        .refused (.ledger (.lockConflict 1)), .elsewhere (.pause 100) (), .served 0, .served 0,
        .served 0, .served 0, .refused (.ledger (.unavailable "down")), .served 0, .served 0,
        .served 0]]

theorem records_tell_truth_refundedTransfer :
    ∃ σ, Stores.live plainService {} refundedTransfer = some σ ∧ ∃ r ∈ σ.table.rows,
      r.status = .failed ∧ r.compensation = .succeeded ∧
        ∃ source target, TransferTold r source target (σ.book.slotsOf r.id) := by
  obtain ⟨σ, hσ, hr⟩ := Option.map_eq_some_iff.mp (show
    (Stores.live plainService {} refundedTransfer).map (fun σ =>
      σ.table.rows.map fun r => (r.type, r.status, r.compensation)) =
      some [(.transfer, .failed, .succeeded)] by decide +kernel)
  obtain ⟨r, hrow, hfields⟩ : ∃ r ∈ σ.table.rows,
      (r.type, r.status, r.compensation) = (.transfer, .failed, .succeeded) :=
    List.mem_map.mp (by simp [hr])
  simp only [Prod.mk.injEq] at hfields
  obtain ⟨hty, hstatus, hcomp⟩ := hfields
  have ht := records_tell_truth hσ (by decide +kernel) hrow
  rw [hty] at ht
  obtain ⟨source, target, _, _, ht⟩ := ht
  exact ⟨σ, hσ, r, hrow, hstatus, hcomp, source, target, ht⟩

end Settlement
