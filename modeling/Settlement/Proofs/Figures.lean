import Settlement.Proofs.Recoveries
import Settlement.Proofs.Rounding
import Settlement.Proofs.Runs

/-!
The figures that a program is told and computes with: a rate, what was spent, the time. Main statements:
driving, recovering and most checks are told none and never break off; the others break off exactly if
their figures make a number that is too wide.
-/

namespace Settlement

open Decimal (TooWide)

/-- What a program was told of all that it computes with. -/
structure Figures where
  rate : Decimal := .one
  spent : Option Decimal := none
  now : Option Instant := none

namespace Figures

def hear (h : Figures) : (call : Call) → call.Answer → Figures
  | .rates (.lookup ..), some rate => { h with rate }
  | .rates (.keep _ _ rate), _ => { h with rate }
  | .store (.sumSpending ..), .ok spent => { h with spent := some spent }
  | .now, now => { h with now := some now }
  | _, _ => h

def met (h : Figures) (m : Met) : Figures :=
  match m.outcome with
  | .value a => h.hear m.call a
  | .panic _ => h

def ofMets (mets : List Met) : Figures := mets.foldl met {}

def SpentOver (amount : Decimal) (h : Figures) : Prop :=
  ∃ spent, h.spent = some spent ∧ TooWide (spent.value + amount.value)

def TransferOver (amount : Decimal) (h : Figures) : Prop :=
  TooWide (amount.value * h.rate.value) ∨
    ∃ target, Money.convert amount h.rate = some target ∧ SpentOver target h

def CutoffOver (timeoutSecs : Nat) (h : Figures) : Prop :=
  ∃ now, h.now = some now ∧ now - timeoutSecs * 1000000 < Instant.first

end Figures

def Call.Suits : (call : Call) → call.Answer → Prop
  | .store (.get id), a => ∀ tx, a = .ok (some tx) → tx.id = id
  | _, _ => True

def hearing : Asking Call.Answer Figures where
  ask call next h := ∀ a, call.Suits a → next a (h.hear call a)
  mono hn h := fun a ha => hn _ _ (h a ha)

theorem Stores.suits_of_meet {σ σ' : Stores} {call : Call} {reply : Reply} {a : call.Answer}
    {eff : Effect} (h : σ.meet call reply = some (.value a, eff, σ')) : call.Suits a := by
  cases call with
  | store call =>
    cases call with
    | get id =>
      intro tx ha
      exact (TransactionTable.mem_of_row? (meet_get h _ ha)).2
    | insert | getByKey | markProcessing | advanceStep | finalize | findStuck | history
      | sumSpending => trivial
  | ledger | limits | categories | rates | now | pause => trivial

namespace Flow

variable {α : Type} {x : Flow Call Call.Answer α} {σ σ' : Stores} {mets : List Met}
  {outcome : Outcome α}

/-- A run that no call breaks off comes to what is told of the program. -/
theorem Runs.tells (h : x.Runs σ mets outcome σ')
    (hm : ∀ m ∈ mets, ∀ message, m.outcome ≠ .panic message) {told : Figures}
    {post : Figures → Outcome α → Prop} (hx : x.Tells hearing post told) :
    post (mets.foldl Figures.met told) outcome := by
  induction h generalizing told with
  | done | panic => exact hx
  | note _ ih => exact ih hm hx
  | ask _ met _ ih =>
    exact ih (fun m hmem => hm m (List.mem_cons_of_mem _ hmem)) (hx _ (Stores.suits_of_meet met))
  | broke => exact absurd rfl (hm _ (List.mem_singleton_self _) _)

/-- A call that breaks off does so with the program, and is the last to meet the stores. -/
theorem Runs.broken (h : x.Runs σ mets outcome σ') {m : Met} (hm : m ∈ mets) {message : String}
    (hp : m.outcome = .panic message) : (∃ message, outcome = .panic message) ∧
      σ'.meet m.call m.reply = some (m.outcome, m.effect, σ') := by
  induction h with
  | done | panic => cases hm
  | note _ ih => exact ih hm
  | ask _ _ _ ih =>
    rcases List.mem_cons.mp hm with rfl | hm
    · cases hp
    · exact ih hm
  | broke _ met =>
    cases List.mem_singleton.mp hm
    obtain ⟨-, rfl⟩ := Stores.meet_panic met
    exact ⟨⟨_, rfl⟩, met⟩

end Flow

namespace Service

open Program Fallible Reports
open Figures (SpentOver TransferOver CutoffOver)

/-- The program does not break off, and it is told nothing to compute with. -/
abbrev Calm (p : Program ε α) (h : Figures) : Prop :=
  Reports hearing p (fun _ h' => h' = h) (fun _ h' => h' = h) (fun _ => False) h

section

variable {s : Service} {h : Figures} {id : TransactionId} {tx : TransactionRecord} {user : UserId}

/-- What comes after a calm program is told of as if it came first. -/
theorem Calm.andThen {p : Program ε β} {f : β → Program ε α} {ok : α → Figures → Prop}
    {err : ε → Figures → Prop} {broke : Figures → Prop} (hp : Calm p h)
    (hf : ∀ b, Reports hearing (f b) ok err broke h) (he : ∀ e, err e h) :
    Reports hearing (p >>= f) ok err broke h := by
  rw [of_bind]
  refine hp.mono (fun b _ hb => ?_) (fun e _ hh => ?_) fun _ hb => hb.elim
  · rw [hb]
    exact hf b
  · rw [hh]
    exact he e

theorem Calm.bind {p : Program ε β} {f : β → Program ε α} (hp : Calm p h) (hf : ∀ b, Calm (f b) h) :
    Calm (p >>= f) h := hp.andThen hf fun _ => rfl

theorem Calm.mapError {p : Program δ α} (hp : Calm p h) (f : δ → ε) : Calm (p.mapError f) h :=
  of_mapError.mpr (hp.mono (fun _ _ h => h) (fun _ _ h => h) fun _ h => h)

theorem Calm.attempt {p : Program δ α} (hp : Calm p h) :
    Calm (Fallible.attempt p : Program ε (Except δ α)) h :=
  of_attempt.mpr (hp.mono (fun _ _ h => h) (fun _ _ h => h) fun _ h => h)

/-- A record is driven and recovered without anything being told. -/
theorem recoverable_hearing : Recoverable hearing id (· = h) (fun _ => True) (· = h) (· = h) where
  leg := by
    rintro _ _ _ _ _ rfl a _
    exact ⟨rfl, fun _ _ _ => trivial⟩
  advance := by
    rintro _ _ rfl a _
    exact ⟨rfl, fun _ _ _ => trivial⟩
  found := by
    rintro _ rfl a ha
    exact ⟨fun tx he => ⟨ha tx he, rfl⟩, fun _ => rfl⟩
  ends := by
    rintro _ _ _ rfl a _
    exact ⟨fun _ _ => rfl, fun _ _ => rfl⟩

theorem execute_calm {type : OperationType} : Calm (execute s type tx) h :=
  (execute_works (recoverable_hearing (h := h)).toWorkable rfl rfl).mono (fun _ _ h => h)
    (fun _ _ h => h.1) fun _ h => h

theorem load_calm : Calm (load id) h :=
  (recoverable_hearing.reports_load rfl).mono (fun _ _ h => h.2) (fun _ _ h => h) fun _ h => h

theorem close_calm {fin : Finalization} (hf : fin.Built) : Calm (close id fin) h :=
  (recoverable_hearing (h := h)).reports_close hf rfl

theorem recover_calm : Calm (recover s id) h := by
  refine (recover_reports (· = h) recoverable_hearing fun a _ => ?_).mono (fun outcome h' ha => ?_)
    (fun _ _ h => h) fun _ h => h
  · exact ⟨fun _ => rfl, fun _ => rfl, fun _ _ => rfl⟩
  · cases outcome with
    | completed => exact ha.closed (.inl rfl)
    | failed => exact ha.closed (.inr rfl)
    | deferred => exact (ha.deferred rfl).1
    | skipped => exact ha.skipped rfl

theorem viewOf_calm : Calm (viewOf id) h := of_map.mpr load_calm

theorem fail_calm (failure : StrategyFailure) : Calm (fail id failure) h := by
  unfold Service.fail
  refine (close_calm (.failed _ _)).bind fun _ => ?_
  split <;> exact rfl

theorem refund_calm {source : AccountId} : Calm (refund tx source) h :=
  (refund_works (recoverable_hearing (h := h)).toWorkable rfl rfl).mono (fun _ _ h => h)
    (fun _ _ h => h.1) fun _ h => h

theorem compensate_calm {type : OperationType} : Calm (compensate type tx) h := by
  unfold compensate
  split
  · exact rfl
  · refine Calm.bind ?_ fun source => refund_calm.attempt.bind fun result => ?_
    · rw [Calm, of_known, sourceOf]
      split <;> exact rfl
    · cases result with
      | ok => exact rfl
      | error e =>
        dsimp only
        split <;> exact rfl

theorem failExhausted_calm {type : OperationType} (conflict : ServiceError) :
    Calm (failExhausted s type id conflict) h := by
  unfold failExhausted
  refine load_calm.bind fun tx => compensate_calm.attempt.bind fun result => ?_
  cases result with
  | ok compensation => exact (close_calm (.failed _ _)).bind fun _ => rfl
  | error e =>
    dsimp only
    split <;> exact rfl

theorem attemptOnce_calm {number : Nat} {again : Option (Unit → Program ServiceError TransactionView)}
    (ha : ∀ next, again = some next → Calm (next ()) h) : Calm (attemptOnce s id number again) h := by
  unfold attemptOnce
  refine Calm.bind (p := markProcessing id) (fun a _ => by cases a <;> rfl) fun taken => ?_
  split
  · exact viewOf_calm
  · refine load_calm.bind fun tx => execute_calm.attempt.bind fun result => ?_
    cases result with
    | ok => exact (close_calm .completed).bind fun _ => viewOf_calm
    | error failure =>
      dsimp only
      split
      · cases again with
        | some next => exact fun _ _ => ha next rfl
        | none => exact (failExhausted_calm _).bind fun _ => rfl
      · exact (fail_calm failure).bind fun _ => rfl

theorem driveFrom_calm (left number : Nat) : Calm (driveFrom s id left number) h := by
  induction left generalizing number with
  | zero => exact attemptOnce_calm (by simp)
  | succ left ih =>
    refine attemptOnce_calm fun next hn => ?_
    cases hn
    exact ih (number + 1)

theorem drive_calm : Calm (drive s id) h := driveFrom_calm _ 1

theorem replay_calm {existing : TransactionRecord} : Calm (replay s existing user) h := by
  unfold replay
  dsimp only
  split
  · exact rfl
  · split
    · exact drive_calm
    · exact rfl

theorem createAndDrive_calm {new : NewTransaction} : Calm (createAndDrive s new) h := by
  unfold createAndDrive
  refine Calm.bind (p := insert new) (fun a _ => by cases a <;> rfl) fun outcome => ?_
  cases outcome with
  | inserted tx => exact drive_calm
  | duplicateKey =>
    refine Calm.bind (p := getByKey new.key) (fun a _ => by cases a <;> rfl) fun found => ?_
    cases found with
    | none => exact rfl
    | some winner =>
      dsimp only
      split <;> exact rfl

theorem existingAccount_calm {account : AccountId} : Calm (existingAccount account) h :=
  Calm.mapError (p := getAccount account) (fun a _ => by cases a <;> rfl) _

theorem ownedAccount_calm {account : AccountId} : Calm (ownedAccount account user) h := by
  unfold ownedAccount
  refine existingAccount_calm.bind fun found => ?_
  split <;> exact rfl

theorem requireActive_calm {account : Account} : Calm (requireActive account) h := by
  unfold requireActive
  split <;> exact rfl

theorem resolveCategory_calm {category : Option CategoryId} {type : OperationType} :
    Calm (resolveCategory category user type) h := by
  unfold resolveCategory
  dsimp only
  split
  · exact rfl
  · split
    · exact rfl
    next id =>
      refine Calm.bind (p := findCategory id) (fun a _ => by cases a <;> rfl) fun found => ?_
      cases found with
      | none => exact rfl
      | some category =>
        dsimp only
        split <;> exact rfl

theorem getLimits_calm : Calm (getLimits s user) h := by
  unfold getLimits
  refine Calm.bind (p := findLimit user) (fun a _ => by cases a <;> rfl) fun found => ?_
  cases found with
  | some limit => exact rfl
  | none => exact fun a _ => by cases a <;> rfl

/-- The rate that is answered is the one that was told, or the one that needs no telling. -/
theorem getRate_tells {source target : Currency} :
    Reports hearing (getRate s source target) (fun rate h => h = { rate }) (fun _ h => h = {})
      (fun _ => False) {} := by
  unfold getRate
  dsimp only
  split
  · exact rfl
  · rw [of_bind]
    intro looked _
    cases looked with
    | some rate => exact rfl
    | none =>
      refine Calm.andThen (p := fetchRate source target) (fun a _ => by cases a <;> rfl) ?_ fun _ => rfl
      intro response
      split
      · exact rfl
      · split
        · exact rfl
        · exact fun _ _ => rfl

/-- The product is too wide, and the program breaks off, or it has an amount to go on with. -/
theorem converted_tells {amount : Decimal} :
    Reports hearing (converted amount h.rate)
      (fun target h' => h' = h ∧ Money.convert amount h.rate = some target ∧
        ¬TooWide (amount.value * h.rate.value))
      (fun _ _ => False) (fun h' => h' = h ∧ TooWide (amount.value * h.rate.value)) h := by
  unfold converted
  cases hc : Money.convert amount h.rate with
  | none => exact ⟨rfl, Decimal.mul_eq_none.mp (Option.map_eq_none_iff.mp hc)⟩
  | some target =>
    refine ⟨rfl, rfl, fun hw => ?_⟩
    rw [Money.convert, Decimal.mul_eq_none.mpr hw] at hc
    cases hc

theorem checkLimit_tells {amount : Decimal} (hn : h.spent = none) :
    Reports hearing (checkLimit s user amount)
      (fun _ h' => h'.rate = h.rate ∧ ¬SpentOver amount h')
      (fun _ h' => h'.rate = h.rate ∧ ¬SpentOver amount h')
      (fun h' => h'.rate = h.rate ∧ SpentOver amount h') h := by
  have hfresh : ∀ {h' : Figures}, h'.spent = none → ¬SpentOver amount h' := by
    rintro h' hn ⟨spent, hs, -⟩
    cases hn.symm.trans hs
  unfold checkLimit
  refine getLimits_calm.andThen (fun limit => ?_) fun _ => ⟨rfl, hfresh hn⟩
  dsimp only
  split
  · exact ⟨rfl, hfresh hn⟩
  · rw [of_bind]
    intro now _
    show Reports hearing (sumSpending user (now - dailyWindow) >>= _) _ _ _ { h with now := some now }
    rw [of_bind]
    intro answer _
    cases answer with
    | error e => exact ⟨rfl, hfresh hn⟩
    | ok spent =>
      have hover : SpentOver amount { h with now := some now, spent := some spent } ↔
          spent.add amount = none := by
        rw [Decimal.add_eq_none]
        exact ⟨fun ⟨_, hs, hw⟩ => Option.some.inj hs ▸ hw, fun hw => ⟨spent, rfl, hw⟩⟩
      dsimp only [Flow.Tells, Closes]
      split
      next hs => exact ⟨rfl, hover.mpr hs⟩
      next total hs =>
        have hroom : ¬SpentOver amount { h with now := some now, spent := some spent } := by
          rw [hover, hs]
          simp
        split <;> exact ⟨rfl, hroom⟩

/-- The program breaks off exactly if what it was told in the end makes a number too wide. -/
abbrev Breaks (p : Program ε α) (wide : Figures → Prop) (h : Figures) : Prop :=
  Reports hearing p (fun _ h' => ¬wide h') (fun _ h' => ¬wide h') wide h

theorem Calm.breaks {p : Program ε α} {wide : Figures → Prop} (hp : Calm p h) (hn : ¬wide h) :
    Breaks p wide h :=
  hp.mono (fun _ _ hh => hh ▸ hn) (fun _ _ hh => hh ▸ hn) fun _ hb => hb.elim

theorem submit_breaks {key : String} {check : Program ServiceError NewTransaction}
    {wide : Figures → Prop} (hn : ¬wide {}) (hc : Breaks check wide {}) :
    Breaks (submit s user key check) wide {} := by
  unfold submit requireKey
  refine Calm.andThen (p := if trimBlanks key.toList = [] then _ else _) ?_ (fun _ => ?_) fun _ => hn
  · split <;> exact rfl
  refine Calm.andThen (p := getByKey key) (fun a _ => by cases a <;> rfl) (fun found => ?_) fun _ => hn
  cases found with
  | some existing => exact replay_calm.breaks hn
  | none =>
    show Breaks (check >>= fun new => createAndDrive s new) wide {}
    rw [Breaks, of_bind]
    exact hc.mono (fun new h' hh => createAndDrive_calm.breaks hh) (fun _ _ hh => hh) fun _ hb => hb

theorem not_spentOver (amount : Decimal) : ¬SpentOver amount {} := by
  rintro ⟨spent, hs, -⟩
  cases hs

theorem not_transferOver (amount : Decimal) : ¬TransferOver amount {} := by
  rintro (hw | ⟨_, -, spent, hs, -⟩)
  · have hone : Decimal.one.value = 1 := by simp [Decimal.value, Decimal.one, tenTo_zero]
    rw [hone, mul_one] at hw
    exact Decimal.value_fits amount hw
  · cases hs

theorem validAmount_eq {amount accepted : Decimal} (h : Money.validate amount = .ok accepted) :
    accepted = amount := by
  unfold Money.validate at h
  split at h
  · contradiction
  · split at h <;> cases h
    rfl

theorem newTransfer_breaks {request : TransferRequest} {key : String} :
    Breaks (newTransfer s request user key) (TransferOver request.amount) {} := by
  have hn := not_transferOver request.amount
  unfold newTransfer
  dsimp only
  rw [Breaks, of_bind, validAmount, of_known]
  cases hv : Money.validate request.amount with
  | error e => exact hn
  | ok accepted =>
    obtain rfl := validAmount_eq hv
    show Reports hearing _ _ _ _ _
    split
    · exact hn
    refine ownedAccount_calm.andThen (fun source => ?_) fun _ => hn
    refine existingAccount_calm.andThen (fun target => ?_) fun _ => hn
    refine requireActive_calm.andThen (fun _ => ?_) fun _ => hn
    refine requireActive_calm.andThen (fun _ => ?_) fun _ => hn
    rw [of_bind, of_mapError]
    refine getRate_tells.mono (fun rate h hr => ?_) (fun _ h he => he ▸ hn) fun _ hb => hb.elim
    obtain rfl : rate = h.rate := by rw [hr]
    have hs : h.spent = none := by rw [hr]
    rw [of_bind]
    refine converted_tells.mono (fun targetAmount h' hc => ?_) (fun _ _ hb => hb.elim) fun h' hb => ?_
    · obtain ⟨rfl, hc, hroom⟩ := hc
      have hover : ∀ {h'' : Figures}, h''.rate = h'.rate →
          (TransferOver request.amount h'' ↔ SpentOver targetAmount h'') := by
        intro h'' hr''
        unfold TransferOver
        rw [hr'', hc]
        simp [hroom]
      have hfresh : ¬TransferOver request.amount h' := by
        rw [hover rfl]
        rintro ⟨spent, hsp, -⟩
        cases hs.symm.trans hsp
      refine resolveCategory_calm.andThen (fun category => ?_) fun _ => hfresh
      rw [of_bind]
      exact (checkLimit_tells hs).mono (fun _ h'' ⟨hr'', hl⟩ => (hover hr'').not.mpr hl)
        (fun _ h'' ⟨hr'', hl⟩ => (hover hr'').not.mpr hl) fun h'' ⟨hr'', hl⟩ => (hover hr'').mpr hl
    · obtain ⟨rfl, hw⟩ := hb
      exact .inl hw

theorem newDeposit_calm {request : DepositRequest} {key : String} :
    Calm (newDeposit request user key) h := by
  unfold newDeposit
  refine Calm.bind ?_ fun amount => ?_
  · rw [Calm, validAmount, of_known]
    cases Money.validate request.amount <;> exact rfl
  refine ownedAccount_calm.bind fun target => requireActive_calm.bind fun _ => ?_
  exact resolveCategory_calm.bind fun _ => rfl

theorem newWithdraw_breaks {request : WithdrawRequest} {key : String} :
    Breaks (newWithdraw s request user key) (SpentOver request.amount) {} := by
  have hn := not_spentOver request.amount
  unfold newWithdraw
  rw [Breaks, of_bind, validAmount, of_known]
  cases hv : Money.validate request.amount with
  | error e => exact hn
  | ok accepted =>
    obtain rfl := validAmount_eq hv
    refine ownedAccount_calm.andThen (fun source => ?_) fun _ => hn
    refine requireActive_calm.andThen (fun _ => ?_) fun _ => hn
    refine resolveCategory_calm.andThen (fun category => ?_) fun _ => hn
    rw [of_bind]
    exact (checkLimit_tells rfl).mono (fun _ _ hl => hl.2) (fun _ _ hl => hl.2) fun _ hl => hl.2

theorem cutoff_breaks {timeoutSecs : Nat} :
    Breaks (cutoff timeoutSecs) (CutoffOver timeoutSecs) {} := by
  have hn : ¬CutoffOver timeoutSecs {} := by
    rintro ⟨now, hs, -⟩
    cases hs
  unfold cutoff
  dsimp only
  split
  · exact hn
  · rw [Breaks, of_bind]
    intro now _
    have hover : CutoffOver timeoutSecs { now := some now } ↔
        now - timeoutSecs * 1000000 < Instant.first :=
      ⟨fun ⟨_, hs, hw⟩ => Option.some.inj hs ▸ hw, fun hw => ⟨now, rfl, hw⟩⟩
    show Reports hearing (if now - timeoutSecs * 1000000 < Instant.first then _ else _) _ _ _
      { now := some now }
    split
    next hw => exact hover.mpr hw
    next hw => exact hover.not.mpr hw

theorem recoverAll_calm {stuck : List TransactionRecord} {report : SweepReport} :
    Calm (recoverAll s stuck report) h := by
  induction stuck generalizing report with
  | nil => exact rfl
  | cons tx rest ih =>
    unfold recoverAll
    refine recover_calm.attempt.bind fun result => ?_
    cases result with
    | ok outcome => exact ih
    | error e => exact ih

theorem sweepSince_calm {settings : SweepSettings} {cutoff : Instant} {told : Figures} :
    Calm (sweepSince s settings cutoff) told := by
  unfold sweepSince
  refine Calm.bind (p := findStuck cutoff settings.batchSize) (fun a _ => by cases a <;> rfl) ?_
  intro stuck
  split
  · exact rfl
  · exact recoverAll_calm.bind fun _ => rfl

theorem sweep_breaks {settings : SweepSettings} :
    Breaks (sweep s settings) (CutoffOver settings.processingTimeoutSecs) {} := by
  unfold sweep
  rw [Breaks, of_bind]
  exact cutoff_breaks.mono (fun cutoff h hn => sweepSince_calm.breaks hn) (fun _ _ hn => hn)
    fun _ hb => hb

end
end Service

end Settlement
