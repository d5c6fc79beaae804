import Mathlib.Data.List.Induction
import Settlement.Proofs.Deeds
import Settlement.Proofs.Endurance

/-!
How far a transaction has come all of whose legs the ledger grants. Its state and the ledger may be out
of step, but never by more than a driver mends who takes the record up: what is applied already is
replayed, what is stored already stays.
-/

namespace Settlement

def OperationType.lastStep : OperationType → TransactionStep
  | transfer => .creditDone
  | deposit | withdraw => .none

namespace Book

section

variable {b b' : Book} {r : TransactionRecord} {leg : Leg} {legs : List Leg}

def grant (r : TransactionRecord) (b : Book) (leg : Leg) : Option Book :=
  (leg.account r.payload).bind fun account =>
    match b.mutate leg.direction account (leg.amount r.payload) ⟨r.id, leg.phase⟩ with
    | (.value (.ok _), b) => some b
    | _ => none

def grants (b : Book) (r : TransactionRecord) (legs : List Leg) : Option Book :=
  legs.foldlM (grant r) b

theorem grant_eq_some : b.grant r leg = some b' ↔ ∃ account outcome,
    leg.account r.payload = some account ∧
      b.mutate leg.direction account (leg.amount r.payload) ⟨r.id, leg.phase⟩ =
        (.value (.ok outcome), b') := by
  unfold grant
  rw [Option.bind_eq_some_iff]
  refine exists_congr fun account => ?_
  constructor
  · rintro ⟨ha, hm⟩
    split at hm
    next outcome after he =>
      cases hm
      exact ⟨outcome, ha, he⟩
    next => cases hm
  · rintro ⟨outcome, ha, hm⟩
    exact ⟨ha, by rw [hm]⟩

theorem grants_append (b : Book) (r : TransactionRecord) (legs others : List Leg) :
    b.grants r (legs ++ others) = (b.grants r legs).bind fun b => b.grants r others :=
  List.foldlM_append

theorem grants_singleton (b : Book) (r : TransactionRecord) (leg : Leg) :
    b.grants r [leg] = b.grant r leg := by
  simp [grants]

/-- Each leg that was granted would be replayed. -/
theorem replays_of_grants (h : b.grants r legs = some b') : ∀ leg ∈ legs, ∀ account,
    leg.account r.payload = some account →
      b'.Replays leg.direction account (leg.amount r.payload) ⟨r.id, leg.phase⟩ := by
  induction legs using List.reverseRecOn generalizing b' with
  | nil => simp
  | append_singleton legs last ih =>
    rw [grants_append] at h
    obtain ⟨before, hb, hl⟩ := Option.bind_eq_some_iff.mp h
    rw [grants_singleton] at hl
    obtain ⟨_, outcome, hacc, hm⟩ := grant_eq_some.mp hl
    obtain ⟨hlast, hkeep⟩ := mutate_granted hm
    intro leg hleg account ha
    rcases List.mem_append.mp hleg with hleg | hleg
    · exact hkeep (ih hb leg hleg account ha)
    · cases List.mem_singleton.mp hleg
      rw [ha] at hacc
      cases hacc
      exact hlast

end
end Book

/-- A leg that comes next is done already, or nothing but the legs before it is. -/
theorem Leg.next_cases {type : OperationType} {leg : Leg} {legs : List Leg} (hl : leg ∈ type.legs)
    (hp : legs <+: type.legs) (hb : leg.before <+: legs) :
    (leg ∈ legs ∧ leg.before ++ [leg] <+: legs) ∨
      (leg ∉ legs ∧ legs = leg.before ∧ legs ++ [leg] <+: type.legs) := by
  cases type with
  | transfer =>
    simp only [OperationType.legs, List.prefix_cons_iff, List.prefix_nil] at hp
    simp only [OperationType.legs, List.mem_cons, List.not_mem_nil, or_false] at hl
    rcases hp with rfl | ⟨_, rfl, rfl | ⟨_, rfl, rfl⟩⟩ <;> rcases hl with rfl | rfl <;>
      simp_all [Leg.before, OperationType.legs]
  | deposit | withdraw =>
    simp only [OperationType.legs, List.prefix_cons_iff, List.prefix_nil] at hp
    simp only [OperationType.legs, List.mem_singleton] at hl
    rcases hp with rfl | ⟨_, rfl, rfl⟩ <;> simp [hl, Leg.before, OperationType.legs]

structure TransactionRecord.Fits (q : TransactionRecord) (legs : List Leg) : Prop where
  stored : q.step.legs <+: legs
  compensation : q.compensation = .none
  message : q.errorMessage = none
  ended : q.status.isTerminal = true →
    q.status = .completed ∧ legs = q.type.legs ∧ q.step = q.type.lastStep

/-- The transaction `r`, whose record is `q` now, has come as far as the legs since the book was `b`. -/
structure Underway (b : Book) (r : TransactionRecord) (legs : List Leg) (q : TransactionRecord)
    (σ : Stores) : Prop where
  sound : σ.table.Sound
  row : σ.table.row? r.id = some q
  same : r.Same q
  book : b.grants r legs = some σ.book
  fits : q.Fits legs
  legal : legs <+: r.type.legs

def Settled (b : Book) (r : TransactionRecord) (σ : Stores) : Prop :=
  ∃ q, Underway b r r.type.legs q σ ∧ q.status = .completed

def StoreCall.sums : StoreCall → Bool
  | sumSpending .. => true
  | _ => false

inductive Asks (r : TransactionRecord) (legs : List Leg) : Call → Prop
  | leg {leg : Leg} {account : AccountId} (next : leg ∈ r.type.legs) (before : leg.before <+: legs)
      (ha : leg.account r.payload = some account) :
      Asks r legs
        (.ledger (.mutate leg.direction account (leg.amount r.payload) ⟨r.id, leg.phase⟩))
  | store {call : StoreCall} (hc : call.sums = false) : Asks r legs (.store call)

def OnCourse (b : Book) (r : TransactionRecord) (σ : Stores) (call : Call) : Prop :=
  ∃ legs q, Underway b r legs q σ ∧ Asks r legs call

namespace Underway

open Program

section

variable {b : Book} {r q : TransactionRecord} {legs : List Leg} {σ σ' : Stores} {reply : Reply}
  {eff : Effect}

theorem type_eq (h : Underway b r legs q σ) : q.type = r.type := h.same.type_eq.symm

theorem id_eq (h : Underway b r legs q σ) : q.id = r.id := h.same.id.symm

theorem settled (h : Underway b r legs q σ) (ho : q.status.isTerminal = true) : Settled b r σ := by
  obtain ⟨hc, rfl, _⟩ := h.fits.ended ho
  rw [h.type_eq] at h
  exact ⟨q, h, hc⟩

/-- A write that the record allows is done, and the state fits as before. -/
theorem wrote {w : Write} {a : Except ServiceError Bool} (h : Underway b r legs q σ)
    (hw : σ.Wrote r.id w reply a eff σ') (hf : reply.faithful = true) (ha : w.allows q = true)
    (hq : ∀ now, (w.apply now q).Fits legs) :
    a = .ok true ∧ ∃ now, Underway b r legs (w.apply now q) σ' := by
  have hs : σ'.table.Sound := by
    cases hw with
    | written table => exact h.sound.write table
    | unwritten => exact h.sound
  rcases hw.record h.row with ⟨now, _, hrow, hbook, _, hok⟩ | ⟨_, _, ⟨_, hn⟩ | ⟨_, hn⟩⟩
  · exact ⟨hok (Reply.faithful_arrives hf), now, hs, hrow, h.same.apply w now, hbook ▸ h.book,
      hq now, h.legal⟩
  · rw [ha] at hn
    cases hn
  · rw [Reply.faithful_storeFails hf] at hn
    cases hn

variable {ok : Bool → Stores → Prop}

theorem markProcessing (h : Underway b r legs q σ) (hf : q.status.isTerminal = true → ok false σ)
    (ht : ∀ q' σ', Underway b r legs q' σ' → q'.status = .processing → ok true σ') :
    Survives (OnCourse b r) (Program.markProcessing r.id) ok σ := by
  refine ⟨⟨legs, q, h, .store rfl⟩, fun reply a eff σ' hfaith hm _ => ?_⟩
  have hw := Stores.meet_markProcessing hm
  cases ho : q.status.isTerminal with
  | false =>
    obtain ⟨rfl, now, hu⟩ := h.wrote hw hfaith (by simp [Write.allows, ho])
      fun now => ⟨h.fits.stored, h.fits.compensation, h.fits.message, nofun⟩
    exact ht _ σ' hu rfl
  | true =>
    rcases hw.record h.row with ⟨_, hn, _⟩ | ⟨_, rfl, ⟨rfl, _⟩ | ⟨_, hn⟩⟩
    · simp [Write.allows, ho] at hn
    · exact hf ho
    · rw [Reply.faithful_storeFails hfaith] at hn
      cases hn

theorem advanceStep {tx : TransactionRecord} (h : Underway b r legs q σ) (step : TransactionStep)
    (hs : r.Same tx) (ho : q.status.isTerminal = false) (hq : q.step < step)
    (hl : step.legs <+: legs)
    (hok : ∀ q' σ', Underway b r legs q' σ' → q'.status.isTerminal = false → q'.step = step →
      ok true σ') :
    Survives (OnCourse b r) (Program.advanceStep tx.id step) ok σ := by
  rw [← hs.id]
  refine ⟨⟨legs, q, h, .store rfl⟩, fun reply a eff σ' hfaith hm _ => ?_⟩
  obtain ⟨rfl, now, hu⟩ := h.wrote (Stores.meet_advanceStep hm) hfaith
    (by simp [Write.allows, ho, hq])
    fun now => ⟨hl, h.fits.compensation, h.fits.message, fun hn => by
      rw [show ((Write.advance step).apply now q).status = q.status from rfl, ho] at hn
      cases hn⟩
  exact hok _ σ' hu ho rfl

/-- The terminal write of a transaction that has all its legs. -/
theorem close {ok : Unit → Stores → Prop} (h : Underway b r r.type.legs q σ)
    (ho : q.status.isTerminal = false) (hs : q.step = r.type.lastStep)
    (hok : ∀ q' σ', Underway b r r.type.legs q' σ' → q'.status = .completed → ok () σ') :
    Survives (OnCourse b r) (Service.close r.id .completed) ok σ := by
  unfold Service.close
  rw [Survives.of_bind]
  refine ⟨⟨_, q, h, .store rfl⟩, fun reply a eff σ' hfaith hm _ => ?_⟩
  obtain ⟨rfl, now, hu⟩ := h.wrote (Stores.meet_finalize hm) hfaith (by simp [Write.allows, ho])
    fun now => ⟨h.fits.stored, rfl, rfl, fun _ => ⟨rfl, by
      show r.type.legs = q.type.legs
      rw [h.type_eq], by
      show q.step = q.type.lastStep
      rw [hs, h.type_eq]⟩⟩
  exact hok _ σ' hu rfl

/-- A leg that comes next, as a driver asks for it. -/
theorem mutate {tx : TransactionRecord} {account : AccountId} {ok : MutationOutcome → Stores → Prop}
    (h : Underway b r legs q σ) (leg : Leg) (hs : r.Same tx)
    (hl : leg ∈ r.type.legs) (hb : leg.before <+: legs) (ha : leg.account tx.payload = some account)
    (hok : ∀ outcome legs' σ', Underway b r legs' q σ' → leg.before ++ [leg] <+: legs' →
      ok outcome σ') :
    Survives (OnCourse b r)
      (Program.mutate leg.direction account (leg.amount tx.payload) ⟨tx.id, leg.phase⟩) ok σ := by
  rw [← hs.payload] at ha
  rw [← hs.payload, ← hs.id]
  refine ⟨⟨legs, q, h, .leg hl hb ha⟩, fun reply a eff σ' hfaith hm hg => ?_⟩
  obtain ⟨hm, htable⟩ := Stores.meet_ledger_faithful hfaith hg hm
  cases a with
  | error e => cases hg
  | ok outcome =>
    have hm : σ.book.mutate leg.direction account (leg.amount r.payload) ⟨r.id, leg.phase⟩ =
      (.value (.ok outcome), σ'.book) := hm
    have hrow : σ'.table.row? r.id = some q := by rw [htable, h.row]
    rcases Leg.next_cases hl h.legal hb with ⟨hmem, hpre⟩ | ⟨hmem, rfl, hlegal⟩
    · have hbook : σ'.book = σ.book := by
        have hrep := Book.replays_of_grants h.book leg hmem account ha
        rw [hrep] at hm
        exact (Prod.mk.inj hm).2.symm
      exact hok outcome legs σ' ⟨htable ▸ h.sound, hrow, h.same, hbook ▸ h.book, h.fits, h.legal⟩ hpre
    · refine hok outcome (leg.before ++ [leg]) σ'
        ⟨htable ▸ h.sound, hrow, h.same, ?_, ⟨?_, h.fits.compensation, h.fits.message, ?_⟩, hlegal⟩
        (List.prefix_refl _)
      · rw [Book.grants_append, h.book, Option.bind_some, Book.grants_singleton]
        exact Book.grant_eq_some.mpr ⟨account, outcome, ha, hm⟩
      · exact h.fits.stored.trans (List.prefix_append _ _)
      · intro ho
        obtain ⟨_, hall, _⟩ := h.fits.ended ho
        rw [hall, h.type_eq] at hmem
        exact absurd hl hmem

theorem load {ok : TransactionRecord → Stores → Prop} (h : Underway b r legs q σ) (ho : ok q σ) :
    Survives (OnCourse b r) (Service.load r.id) ok σ := by
  unfold Service.load
  rw [Survives.of_bind]
  refine ⟨⟨legs, q, h, .store rfl⟩, fun reply a eff σ' hfaith hm _ => ?_⟩
  obtain ⟨_, rfl⟩ := Stores.meet_reads rfl hm
  obtain ⟨now, hanswer⟩ := Stores.meet_store_faithful hfaith hm
  rw [TransactionTable.answer, h.row] at hanswer
  cases hanswer
  exact ho

theorem viewOf {ok : TransactionView → Stores → Prop} (h : Underway b r legs q σ)
    (ho : ok q.view σ) : Survives (OnCourse b r) (Service.viewOf r.id) ok σ := by
  unfold Service.viewOf
  rw [Survives.of_map]
  exact h.load ho

end

section

variable {b : Book} {r q tx : TransactionRecord} {legs : List Leg} {σ : Stores} {s : Service}
  {source target : AccountId} {ok : Unit → Stores → Prop}

theorem debitSource (h : Underway b r legs q σ) (hs : r.Same tx) (ht : r.type = .transfer)
    (ha : tx.source = some source) (ho : q.status.isTerminal = false) (hq : q.step = .none)
    (hok : ∀ legs' q' σ', Underway b r legs' q' σ' → q'.status.isTerminal = false →
      q'.step = .debitDone → ok () σ') :
    Survives (OnCourse b r) (Service.debitSource s tx source) ok σ := by
  unfold Service.debitSource
  simp only [Survives.of_bind, Survives.of_mapError]
  refine h.mutate .debit hs (by simp [ht, OperationType.legs]) (List.nil_prefix) ha ?_
  intro outcome legs' σ' h' hpre
  refine h'.advanceStep .debitDone hs ho (by rw [hq]; decide) hpre ?_
  intro q' σ'' h'' ho' hq'
  exact hok legs' q' σ'' h'' ho' hq'

theorem creditTarget (h : Underway b r legs q σ) (hs : r.Same tx) (ht : r.type = .transfer)
    (ha : tx.target = some target) (ho : q.status.isTerminal = false) (hq : q.step = .debitDone)
    (hok : ∀ q' σ', Underway b r r.type.legs q' σ' → q'.status.isTerminal = false →
      q'.step = r.type.lastStep → ok () σ') :
    Survives (OnCourse b r) (Service.creditTarget s tx source target) ok σ := by
  have hd : q.step.legs <+: legs := h.fits.stored
  rw [hq] at hd
  unfold Service.creditTarget
  rw [Survives.of_bind]
  refine Survives.of_attempt ?_
  refine h.mutate .credit hs (by simp [ht, OperationType.legs]) hd ha ?_
  intro outcome legs' σ' h' hpre
  obtain rfl : legs' = r.type.legs :=
    h'.legal.eq_of_length_le (by rw [ht]; exact hpre.length_le)
  simp only [Survives.of_bind, Survives.of_mapError]
  refine h'.advanceStep .creditDone hs ho (by rw [hq]; decide) hpre ?_
  intro q' σ'' h'' ho' hq'
  exact hok q' σ'' h'' ho' (by rw [hq', ht]; rfl)

/-- A transaction of one leg has all of its legs with it. -/
theorem single {granted : MutationOutcome → Stores → Prop} {account : AccountId}
    (h : Underway b r legs q σ) (leg : Leg) (hs : r.Same tx) (hl : leg.type = r.type)
    (hn : r.type ≠ .transfer) (ha : leg.account tx.payload = some account)
    (hok : ∀ outcome σ', Underway b r r.type.legs q σ' → q.step = r.type.lastStep →
      granted outcome σ') :
    Survives (OnCourse b r)
      (Program.mutate leg.direction account (leg.amount tx.payload) ⟨tx.id, leg.phase⟩) granted
      σ := by
  have hleg : r.type.legs = [leg] ∧ leg.before = [] ∧ r.type.lastStep = .none := by
    rw [← hl] at hn ⊢
    cases leg with
    | debit | credit | refund => exact absurd rfl hn
    | deposit | withdraw => exact ⟨rfl, rfl, rfl⟩
  obtain ⟨hall, hbefore, hlast⟩ := hleg
  refine h.mutate leg hs (by simp [hall]) (by simp [hbefore]) ha ?_
  intro outcome legs' σ' h' hpre
  obtain rfl : legs' = r.type.legs :=
    h'.legal.eq_of_length_le (by simpa [hall, hbefore] using hpre.length_le)
  refine hok outcome σ' h' ?_
  have hstored := h'.fits.stored
  rw [hall] at hstored
  cases hq : q.step with
  | none => exact hlast.symm
  | debitDone =>
    -- Only a transfer has such a step.
    rw [hq] at hstored
    obtain ⟨_, he⟩ := hstored
    cases he
    exact absurd hl.symm hn
  | creditDone =>
    rw [hq] at hstored
    exact absurd hstored.length_le (by simp [TransactionStep.legs])

/-- Taken up where its record is, the transaction gets all of its legs. -/
theorem execute (h : Underway b r legs q σ) (hw : r.payload.WellFormed)
    (ho : q.status.isTerminal = false)
    (hok : ∀ q' σ', Underway b r r.type.legs q' σ' → q'.status.isTerminal = false →
      q'.step = r.type.lastStep → ok () σ') :
    Survives (OnCourse b r) (Service.execute s q.type q) ok σ := by
  have hw : q.payload.WellFormed := h.same.payload ▸ hw
  have ht := h.type_eq
  unfold Service.execute
  cases hq : q.type with
  | transfer =>
    obtain ⟨source, target, hs, hta, _⟩ := hw.transfer hq
    have ht' : r.type = .transfer := ht.symm.trans hq
    simp only [Service.executeTransfer, Service.sourceOf, Service.targetOf, hs, hta,
      Except.mapError, Survives.of_bind, Survives.of_known, Succeeds]
    cases hp : q.step with
    | none =>
      simp only [Survives.of_bind]
      refine h.debitSource h.same ht' hs ho hp fun legs' q' σ' h' ho' hp' => ?_
      exact h'.creditTarget h.same ht' hta ho' hp' hok
    | debitDone => exact h.creditTarget h.same ht' hta ho hp hok
    | creditDone =>
      have hstored := h.fits.stored
      rw [hp] at hstored
      obtain rfl : legs = r.type.legs :=
        h.legal.eq_of_length_le (by rw [ht']; exact hstored.length_le)
      exact hok q σ h ho (by rw [hp, ht']; rfl)
  | deposit =>
    obtain ⟨target, _, hta⟩ := hw.deposit hq
    have ht' : r.type = .deposit := ht.symm.trans hq
    simp only [Service.executeDeposit, Service.targetOf, hta, Except.mapError, Survives.of_bind,
      Survives.of_known, Succeeds, Survives.of_mapError]
    exact h.single .deposit h.same ht'.symm (by rw [ht']; decide) hta
      fun _ σ' h' hs' => hok q σ' h' ho hs'
  | withdraw =>
    obtain ⟨source, hs, _⟩ := hw.withdraw hq
    have ht' : r.type = .withdraw := ht.symm.trans hq
    simp only [Service.executeWithdraw, Service.sourceOf, hs, Except.mapError, Survives.of_bind,
      Survives.of_known, Succeeds, Survives.of_mapError]
    exact h.single .withdraw h.same ht'.symm (by rw [ht']; decide) hs
      fun _ σ' h' hs' => hok q σ' h' ho hs'

end

section

variable {b : Book} {r q : TransactionRecord} {legs : List Leg} {σ : Stores} {s : Service}

/-- The single attempt of a recovery completes the transaction, or finds it completed. -/
theorem recover (h : Underway b r legs q σ) (hw : r.payload.WellFormed) :
    Survives (OnCourse b r) (Service.recover s r.id) (fun _ => Settled b r) σ := by
  unfold Service.recover
  rw [Survives.of_bind]
  refine h.markProcessing (fun ho => h.settled ho) fun q' σ' h' hs' => ?_
  simp only [Bool.not_true, Bool.false_eq_true, if_false, Survives.of_bind]
  refine h'.load (Survives.of_attempt ?_)
  refine h'.execute hw (by rw [hs']; rfl) fun q₂ σ₂ h₂ ho hp => ?_
  simp only [Survives.of_bind]
  exact h₂.close ho hp fun q₃ σ₃ h₃ hs₃ => ⟨q₃, h₃, hs₃⟩

/-- So does the first attempt of a drive. -/
theorem attemptOnce {number : Nat} {again : Option (Unit → Program ServiceError TransactionView)}
    (h : Underway b r legs q σ) (hw : r.payload.WellFormed) :
    Survives (OnCourse b r) (Service.attemptOnce s r.id number again) (fun _ => Settled b r) σ := by
  unfold Service.attemptOnce
  rw [Survives.of_bind]
  refine h.markProcessing (fun ho => ?_) fun q' σ' h' hs' => ?_
  · simp only [Bool.not_false, if_true, Survives.of_bind]
    exact h.viewOf (h.settled ho)
  simp only [Bool.not_true, Bool.false_eq_true, if_false, Survives.of_bind]
  refine h'.load (Survives.of_attempt ?_)
  refine h'.execute hw (by rw [hs']; rfl) fun q₂ σ₂ h₂ ho hp => ?_
  simp only [Survives.of_bind]
  exact h₂.close ho hp fun q₃ σ₃ h₃ hs₃ => h₃.viewOf ⟨q₃, h₃, hs₃⟩

theorem drive (h : Underway b r legs q σ) (hw : r.payload.WellFormed) :
    Survives (OnCourse b r) (Service.drive s r.id) (fun _ => Settled b r) σ := by
  unfold Service.drive
  cases s.retry.maxAttempts - 1 with
  | zero => exact h.attemptOnce hw
  | succ left => exact h.attemptOnce hw

/-- A request under the key of the record finds it, and drives it if no attempt was started yet. -/
theorem submit {check : Program ServiceError NewTransaction} (h : Underway b r legs q σ)
    (hw : r.payload.WellFormed) (hk : trimBlanks r.key.toList ≠ []) (hs : q.status = .created) :
    Survives (OnCourse b r) (Service.submit s r.user r.key check) (fun _ => Settled b r) σ := by
  have hkey : q.key = r.key := h.same.key_eq.symm
  have huser : q.user = r.user := h.same.user_eq.symm
  unfold Service.submit Service.requireKey
  rw [if_neg hk]
  simp only [Survives.of_bind, Survives.of_pure]
  refine ⟨⟨legs, q, h, .store rfl⟩, fun reply a eff σ' hfaith hm _ => ?_⟩
  obtain ⟨_, rfl⟩ := Stores.meet_reads rfl hm
  obtain ⟨now, hanswer⟩ := Stores.meet_store_faithful hfaith hm
  have hrow : σ'.table.rowByKey? r.key = some q := hkey ▸ h.sound.rowByKey?_of_row? h.row
  rw [TransactionTable.answer, hrow] at hanswer
  cases hanswer
  show Survives _ (Service.replay s q r.user) _ _
  unfold Service.replay
  rw [if_neg (by simp [huser]), if_pos hs, h.id_eq]
  exact h.drive hw

end
end Underway
end Settlement
