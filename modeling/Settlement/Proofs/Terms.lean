import Settlement.Proofs.Stages
import Settlement.Proofs.Values
import Settlement.Service.Requests
import Settlement.Service.Sweep

/-!
The terms that a program keeps to: the calls it may make, as long as it can rely on the answers.
Drivers and sweeps store no new record, and a request stores one only once it was checked.
-/

namespace Settlement

structure Terms where
  may : Call → Prop
  /-- What is relied on in an answer. -/
  trust : (call : Call) → call.Answer → Prop

def Call.plain : Call → Bool
  | .store (.insert _) | .rates (.keep ..) => false
  | _ => true

namespace Terms

/-- The terms allow all calls that change neither money nor records. Only positive rates are kept. -/
structure Queries (t : Terms) : Prop where
  plain : ∀ call : Call, call.plain = true → call.writes = false → t.may call
  keep : ∀ source target rate, Decimal.zero < rate → t.may (.rates (.keep source target rate))

/-- The terms allow every call but insertions, and maybe those too. -/
structure Open (t : Terms) : Prop where
  plain : ∀ call : Call, call.plain = true → t.may call
  keep : ∀ source target rate, Decimal.zero < rate → t.may (.rates (.keep source target rate))

theorem Open.queries {t : Terms} (h : t.Open) : t.Queries := ⟨fun call hp _ => h.plain call hp, h.keep⟩

def Deals (t : Terms) (c : Currency) : Prop :=
  ∀ id account, t.trust (.ledger (.getAccount id)) (.ok account) → account.currency = c

def Quotes (t : Terms) : Prop :=
  ∀ source target rate, t.trust (.rates (.lookup source target)) (some rate) → Decimal.zero < rate

def Grants (t : Terms) (user : UserId) (limit : Limit) : Prop :=
  t.trust (.limits (.find user)) (.ok (some limit)) ∨
    ∃ asked : Limit, asked.user = user ∧ t.trust (.limits (.insertIfAbsent asked)) (.ok limit)

/-- The user is said to have a limit that the amount breaks neither alone nor with what is said to be
spent within its window. -/
def Affords (t : Terms) (user : UserId) (amount : Decimal) : Prop :=
  ∃ limit now spent total, t.Grants user limit ∧ amount ≤ limit.single ∧ t.trust .now now ∧
    t.trust (.store (.sumSpending user (now - Service.dailyWindow))) (.ok spent) ∧
    spent.add amount = some total ∧ total ≤ limit.daily

end Terms

def NewTransaction.Level (new : NewTransaction) : Prop := new.targetAmount.value = new.amount.value

structure Terms.Checks (t : Terms) (new : NewTransaction) : Prop where
  level : ∀ c, t.Deals c → new.Level
  cents : new.targetAmount.Cents
  owed : t.Quotes → Decimal.zero ≤ new.targetAmount
  afforded : new.type.isSpending = true → t.Affords new.user new.targetAmount

def Flow.Under (t : Terms) (post : α → Prop) : Flow Call Call.Answer α → Prop
  | .done a => post a
  | .panic _ => True
  | .note _ rest => rest.Under t post
  | .ask call next => t.may call ∧ ∀ a, t.trust call a → (next a).Under t post

namespace Flow

section

variable {t : Terms}

theorem under_bind (x : Flow Call Call.Answer α) (f : α → Flow Call Call.Answer β)
    (post : β → Prop) :
    (x >>= f).Under t post ↔ x.Under t fun a => (f a).Under t post := by
  induction x with
  | done a => rfl
  | panic m => rfl
  | note e rest ih => exact ih
  | ask q next ih => simp only [ask_bind, Under, ih]

theorem Under.mono {x : Flow Call Call.Answer α} {post post' : α → Prop} (h : x.Under t post)
    (hp : ∀ a, post a → post' a) : x.Under t post' := by
  induction x with
  | done a => exact hp a h
  | panic m => exact h
  | note e rest ih => exact ih h
  | ask q next ih => exact ⟨h.1, fun a ha => ih a (h.2 a ha)⟩

end
end Flow

def Heeds (t : Terms) (p : Program ε α) (value : α → Prop) : Prop :=
  Flow.Under t (fun r => ∀ a, r = .ok a → value a) p.run

namespace Heeds

section

variable {t : Terms} {value : α → Prop}

theorem bind {given : β → Prop} {p : Program ε β} {f : β → Program ε α} (hp : Heeds t p given)
    (hf : ∀ b, given b → Heeds t (f b) value) : Heeds t (p >>= f) value := by
  show Flow.Under t _ (p.run >>= ExceptT.bindCont f)
  rw [Flow.under_bind]
  refine Flow.Under.mono hp fun r hr => ?_
  cases r with
  | ok b => exact hf b (hr b rfl)
  | error e => exact nofun

theorem mono {value' : α → Prop} {p : Program ε α} (h : Heeds t p value)
    (hv : ∀ a, value a → value' a) : Heeds t p value' :=
  Flow.Under.mono h fun _ hr a ha => hv a (hr a ha)

/-- A step whose value does not matter. -/
theorem andThen {p : Program ε β} {f : β → Program ε α} (hp : Heeds t p fun _ => True)
    (hf : ∀ b, Heeds t (f b) value) : Heeds t (p >>= f) value :=
  bind hp fun b _ => hf b

theorem of_pure {a : α} (h : value a) : Heeds t (pure a : Program ε α) value := by
  rintro _ ⟨⟩
  exact h

theorem of_throw {e : ε} : Heeds t (throw e : Program ε α) value := nofun

theorem of_throw_bind {e : ε} {f : β → Program ε α} : Heeds t (throw e >>= f) value := nofun

theorem of_breakOff {message : String} : Heeds t (Fallible.breakOff message : Program ε α) value :=
  trivial

theorem of_log {level : Log.Level} {target message : String}
    {fields : List (String × Log.FieldValue)} :
    Heeds t (Fallible.log level target message fields : Program ε Unit) fun _ => True :=
  fun _ _ => trivial

theorem of_known {r : Except ε α} (h : ∀ a, r = .ok a → value a) :
    Heeds t (Fallible.known r : Program ε α) value := h

theorem of_mapError {p : Program δ α} {f : δ → ε} (hp : Heeds t p value) :
    Heeds t (Fallible.mapError f p) value := by
  show Flow.Under t _ (p.run >>= fun r => .done (r.mapError f))
  rw [Flow.under_bind]
  refine Flow.Under.mono hp fun r hr a ha => ?_
  cases r with
  | ok b =>
    cases ha
    exact hr _ rfl
  | error e => cases ha

theorem of_attempt {p : Program δ α} (hp : Heeds t p fun _ => True) :
    Heeds t (Fallible.attempt p : Program ε (Except δ α)) fun _ => True := by
  show Flow.Under t _ (p.run >>= fun r => Flow.done (Except.ok r))
  rw [Flow.under_bind]
  exact Flow.Under.mono hp fun _ _ _ _ => trivial

end
end Heeds

namespace Service

open Program Heeds

section

variable {t : Terms} (ht : t.Open) {s : Service} {tx : TransactionRecord} {id : TransactionId}
  {source target account : AccountId} {user : UserId}
include ht

theorem refund_heeds : Heeds t (refund tx source) fun _ => True := by
  unfold refund
  refine andThen (of_attempt ⟨ht.plain _ rfl, fun _ _ _ _ => trivial⟩) fun result => ?_
  split
  · exact of_log
  · exact andThen of_log fun _ => of_throw

theorem refundAfter_heeds {e : LedgerError} :
    Heeds t (refundAfter tx source target e) fun _ => True := by
  unfold refundAfter
  refine andThen (of_attempt (refund_heeds ht)) fun result => ?_
  split
  · exact of_throw
  · split
    · exact of_throw
    · exact of_throw

theorem advanceStep_heeds {step : TransactionStep} :
    Heeds t (Fallible.mapError StrategyFailure.plain (advanceStep id step)) fun _ => True :=
  of_mapError ⟨ht.plain _ rfl, fun _ _ _ _ => trivial⟩

theorem creditTarget_heeds : Heeds t (creditTarget s tx source target) fun _ => True := by
  unfold creditTarget
  refine andThen (of_attempt ⟨ht.plain _ rfl, fun _ _ _ _ => trivial⟩) fun result => ?_
  split
  · exact andThen (advanceStep_heeds ht) fun _ => of_log
  · split
    · exact of_throw_bind
    · exact andThen of_log fun _ => refundAfter_heeds ht

theorem debitSource_heeds : Heeds t (debitSource s tx source) fun _ => True := by
  unfold debitSource
  refine andThen (of_mapError ⟨ht.plain _ rfl, fun _ _ _ _ => trivial⟩) fun _ => ?_
  exact andThen (advanceStep_heeds ht) fun _ => of_log

theorem execute_heeds {type : OperationType} : Heeds t (execute s type tx) fun _ => True := by
  have hk : ∀ {r : Except StrategyFailure AccountId},
      Heeds t (Fallible.known r : Program StrategyFailure AccountId) fun _ => True :=
    of_known fun _ _ => trivial
  unfold execute
  split
  · unfold executeTransfer
    refine andThen hk fun source => andThen hk fun target => ?_
    split
    · exact andThen (debitSource_heeds ht) fun _ => creditTarget_heeds ht
    · exact creditTarget_heeds ht
    · exact of_pure trivial
  · unfold executeDeposit
    exact andThen hk fun target => andThen
      (of_mapError ⟨ht.plain _ rfl, fun _ _ _ _ => trivial⟩) fun _ => of_log
  · unfold executeWithdraw
    exact andThen hk fun source => andThen
      (of_mapError ⟨ht.plain _ rfl, fun _ _ _ _ => trivial⟩) fun _ => of_log

theorem compensate_heeds {type : OperationType} : Heeds t (compensate type tx) fun _ => True := by
  unfold compensate
  split
  · exact of_pure trivial
  refine andThen (of_known fun _ _ => trivial) fun source => ?_
  refine andThen (of_attempt (refund_heeds ht)) fun result => ?_
  split
  · exact of_pure trivial
  · split
    · exact of_throw
    · exact of_pure trivial

theorem load_heeds : Heeds t (load id) fun _ => True := by
  unfold load
  refine andThen ⟨ht.plain _ rfl, fun _ _ _ _ => trivial⟩ fun found => ?_
  split
  · exact of_pure trivial
  · exact of_throw

theorem viewOf_heeds : Heeds t (viewOf id) fun _ => True := by
  unfold viewOf
  rw [map_eq_pure_bind]
  exact andThen (load_heeds ht) fun _ => of_pure trivial

theorem close_heeds {fin : Finalization} : Heeds t (close id fin) fun _ => True := by
  unfold close
  refine andThen ⟨ht.plain _ rfl, fun _ _ _ _ => trivial⟩ fun done => ?_
  split
  · exact of_log
  · exact of_pure trivial

theorem fail_heeds {failure : StrategyFailure} : Heeds t (fail id failure) fun _ => True := by
  unfold fail
  refine andThen (close_heeds ht) fun _ => ?_
  split
  · exact andThen of_log fun _ => of_pure trivial
  · exact andThen of_log fun _ => of_pure trivial

theorem failExhausted_heeds {type : OperationType} {conflict : ServiceError} :
    Heeds t (failExhausted s type id conflict) fun _ => True := by
  unfold failExhausted
  refine andThen (load_heeds ht) fun tx => ?_
  refine andThen (of_attempt (compensate_heeds ht)) fun result => ?_
  split
  · exact andThen (close_heeds ht) fun _ => andThen of_log fun _ => of_pure trivial
  · split
    · exact andThen of_log fun _ => of_pure trivial
    · exact of_throw

theorem attemptOnce_heeds {number : Nat}
    {again : Option (Unit → Program ServiceError TransactionView)}
    (hn : ∀ next, again = some next → Heeds t (next ()) fun _ => True) :
    Heeds t (attemptOnce s id number again) fun _ => True := by
  unfold attemptOnce
  refine andThen ⟨ht.plain _ rfl, fun _ _ _ _ => trivial⟩ fun taken => ?_
  split
  · exact andThen of_log fun _ => viewOf_heeds ht
  refine andThen (load_heeds ht) fun tx => andThen of_log fun _ => ?_
  refine andThen (of_attempt (execute_heeds ht)) fun result => ?_
  split
  · exact andThen (close_heeds ht) fun _ => andThen of_log fun _ => viewOf_heeds ht
  · split
    · split
      next next =>
        refine andThen of_log fun _ => andThen ⟨ht.plain _ rfl, fun _ _ _ _ => trivial⟩ fun _ => ?_
        exact hn next rfl
      · exact andThen (failExhausted_heeds ht) fun _ => of_throw
    · exact andThen (fail_heeds ht) fun _ => of_throw

theorem driveFrom_heeds (left number : Nat) : Heeds t (driveFrom s id left number) fun _ => True := by
  induction left generalizing number with
  | zero => exact attemptOnce_heeds ht (by simp)
  | succ left ih =>
    refine attemptOnce_heeds ht fun next hn => ?_
    cases hn
    exact ih (number + 1)

theorem drive_heeds : Heeds t (drive s id) fun _ => True := driveFrom_heeds ht _ 1

theorem recover_heeds : Heeds t (recover s id) fun _ => True := by
  unfold recover
  refine andThen ⟨ht.plain _ rfl, fun _ _ _ _ => trivial⟩ fun taken => ?_
  split
  · exact of_pure trivial
  refine andThen (load_heeds ht) fun tx => ?_
  refine andThen (of_attempt (execute_heeds ht)) fun result => ?_
  split
  · exact andThen (close_heeds ht) fun _ => andThen of_log fun _ => of_pure trivial
  · split
    · exact andThen of_log fun _ => of_pure trivial
    · exact andThen (close_heeds ht) fun _ => andThen of_log fun _ => of_pure trivial

theorem recoverAll_heeds (stuck : List TransactionRecord) (report : SweepReport) :
    Heeds t (recoverAll s stuck report) fun _ => True := by
  induction stuck generalizing report with
  | nil => exact of_pure trivial
  | cons tx rest ih =>
    unfold recoverAll
    refine andThen of_log fun _ => andThen (of_attempt (recover_heeds ht)) fun result => ?_
    split
    · exact ih _
    · exact andThen of_log fun _ => ih _

theorem cutoff_heeds {timeout : Nat} : Heeds t (cutoff timeout) fun _ => True := by
  unfold cutoff
  split
  · exact of_throw_bind
  refine andThen ⟨ht.plain _ rfl, fun _ _ _ _ => trivial⟩ fun now => ?_
  dsimp only
  split
  · exact of_breakOff
  · exact of_pure trivial

theorem sweep_heeds {settings : SweepSettings} : Heeds t (sweep s settings) fun _ => True := by
  unfold sweep sweepSince
  refine andThen (cutoff_heeds ht) fun instant => ?_
  refine andThen ⟨ht.plain _ rfl, fun _ _ _ _ => trivial⟩ fun stuck => ?_
  split
  · exact andThen of_log fun _ => of_pure trivial
  refine andThen of_log fun _ => andThen (recoverAll_heeds ht stuck _) fun report => ?_
  exact andThen of_log fun _ => of_pure trivial

end

section

variable {t : Terms} (ht : t.Queries) {s : Service} {account : AccountId} {user : UserId}
include ht

theorem getLimits_heeds : Heeds t (getLimits s user) fun limit => t.Grants user limit := by
  unfold getLimits
  have hfind : Heeds t (findLimit user) fun found =>
      t.trust (.limits (.find user)) (.ok found) := by
    refine ⟨ht.plain _ rfl rfl, fun a ha found he => ?_⟩
    subst he
    exact ha
  refine bind hfind fun found hf => ?_
  split
  · exact of_pure (.inl hf)
  · refine andThen of_log fun _ => ⟨ht.plain _ rfl rfl, fun a ha limit he => ?_⟩
    subst he
    exact .inr ⟨_, rfl, ha⟩

theorem checkLimit_heeds {amount : Decimal} :
    Heeds t (checkLimit s user amount) fun _ => t.Affords user amount := by
  unfold checkLimit
  refine bind (getLimits_heeds ht) fun limit hl => ?_
  split
  · exact of_throw_bind
  next hsingle =>
    have hnow : Heeds t (Program.now : Program ServiceError Instant) fun now => t.trust .now now := by
      refine ⟨ht.plain _ rfl rfl, fun a ha b he => ?_⟩
      cases he
      exact ha
    have hsum : ∀ since, Heeds t (sumSpending user since) fun spent =>
        t.trust (.store (.sumSpending user since)) (.ok spent) := by
      refine fun since => ⟨ht.plain _ rfl rfl, fun a ha spent he => ?_⟩
      subst he
      exact ha
    refine bind hnow fun now hn => bind (hsum _) fun spent hs => ?_
    split
    · exact of_breakOff
    next total htotal =>
      split
      · exact andThen of_log fun _ => of_throw
      next hdaily =>
        exact of_pure ⟨limit, now, spent, total, hl, Decimal.not_lt.mp hsingle, hn, hs, htotal,
          Decimal.not_lt.mp hdaily⟩

theorem resolveCategory_heeds {category : Option CategoryId} {type : OperationType} :
    Heeds t (resolveCategory category user type) fun _ => True := by
  unfold resolveCategory
  split
  · exact of_pure trivial
  split
  · exact of_throw
  refine andThen ⟨ht.plain _ rfl rfl, fun _ _ _ _ => trivial⟩ fun found => ?_
  split
  · exact of_throw
  split
  · exact andThen of_log fun _ => of_throw_bind
  · exact of_pure trivial

/-- A currency has the rate one against itself, and other rates are positive. -/
theorem getRate_heeds {source target : Currency} :
    Heeds t (getRate s source target) fun rate =>
      (source = target → rate = .one) ∧ (t.Quotes → Decimal.zero < rate) := by
  unfold getRate
  split
  · exact of_pure ⟨fun _ => rfl, fun _ => by decide⟩
  next hne =>
    refine Heeds.mono (?_ : Heeds t _ fun rate => t.Quotes → Decimal.zero < rate)
      fun _ hq => ⟨fun he => absurd he hne, hq⟩
    have hlookup : Heeds t (lookupRate source target : Program RateError (Option Decimal))
        fun found => t.trust (.rates (.lookup source target)) found := by
      refine ⟨ht.plain _ rfl rfl, fun a ha b he => ?_⟩
      cases he
      exact ha
    refine bind hlookup fun found hf => ?_
    split
    next rate => exact of_pure fun hq => hq source target rate hf
    refine andThen of_log fun _ => andThen ⟨ht.plain _ rfl rfl, fun _ _ _ _ => trivial⟩ fun response => ?_
    split
    · exact of_throw
    split
    · exact of_throw_bind
    next hpos =>
      have hpos := Decimal.not_le.mp hpos
      exact andThen ⟨ht.keep _ _ _ hpos, fun _ _ _ _ => trivial⟩ fun _ => of_pure fun _ => hpos

theorem existingAccount_heeds :
    Heeds t (existingAccount account) fun found => ∀ c, t.Deals c → found.currency = c := by
  refine of_mapError ⟨ht.plain _ rfl rfl, fun a ha => ?_⟩
  rintro found rfl c hc
  exact hc account found ha

theorem ownedAccount_heeds :
    Heeds t (ownedAccount account user) fun found => ∀ c, t.Deals c → found.currency = c := by
  unfold ownedAccount
  refine bind (existingAccount_heeds ht) fun found hf => ?_
  split
  · exact andThen of_log fun _ => of_throw_bind
  · exact of_pure hf

omit ht in
theorem requireActive_heeds {found : Account} : Heeds t (requireActive found) fun _ => True := by
  unfold requireActive
  split
  · exact of_pure trivial
  · exact of_throw

omit ht in
theorem validAmount_heeds {amount : Decimal} :
    Heeds t (validAmount amount) fun accepted => Money.validate amount = .ok accepted := by
  refine of_known fun accepted ha => ?_
  cases hv : Money.validate amount with
  | error e =>
    rw [hv] at ha
    cases ha
  | ok b =>
    rw [hv] at ha
    cases ha
    rfl

omit ht in
theorem converted_heeds {amount rate : Decimal} :
    Heeds t (converted amount rate) fun target => Money.convert amount rate = some target := by
  unfold converted
  split
  next target hc => exact of_pure hc
  next => exact of_breakOff

/-- A transfer is stored under its key for its user, and where all accounts have one currency it
credits what it debits. -/
theorem newTransfer_heeds {request : TransferRequest} {key : String} :
    Heeds t (newTransfer s request user key) fun new =>
      new.key = key ∧ new.user = user ∧ t.Checks new := by
  unfold newTransfer
  refine bind validAmount_heeds fun amount hv => ?_
  split
  · exact of_throw_bind
  refine bind (ownedAccount_heeds ht) fun source hs => ?_
  refine bind (existingAccount_heeds ht) fun target hta => ?_
  refine andThen requireActive_heeds fun _ => andThen requireActive_heeds fun _ => ?_
  refine bind (of_mapError (getRate_heeds ht)) fun rate hr => ?_
  refine bind converted_heeds fun targetAmount hc => ?_
  refine andThen (resolveCategory_heeds ht) fun category => ?_
  refine bind (checkLimit_heeds ht) fun _ ha => of_pure ⟨rfl, rfl, fun c hd => ?_, ?_, fun hq => ?_, ?_⟩
  · rw [hr.1 ((hs c hd).trans (hta c hd).symm)] at hc
    exact Money.convert_one hv hc
  · exact Money.convert_cents hc
  · exact Money.convert_nonneg (Money.validate_nonneg hv) (Decimal.le_of_lt (hr.2 hq)) hc
  · exact fun _ => ha

theorem newDeposit_heeds {request : DepositRequest} {key : String} :
    Heeds t (newDeposit request user key) fun new =>
      new.key = key ∧ new.user = user ∧ t.Checks new := by
  unfold newDeposit
  refine bind validAmount_heeds fun amount hv => ?_
  refine bind (ownedAccount_heeds ht) fun target _ => ?_
  refine andThen requireActive_heeds fun _ => andThen (resolveCategory_heeds ht) fun _ => ?_
  exact of_pure ⟨rfl, rfl, fun _ _ => rfl, Money.validate_cents hv, fun _ => Money.validate_nonneg hv,
    nofun⟩

theorem newWithdraw_heeds {request : WithdrawRequest} {key : String} :
    Heeds t (newWithdraw s request user key) fun new =>
      new.key = key ∧ new.user = user ∧ t.Checks new := by
  unfold newWithdraw
  refine bind validAmount_heeds fun amount hv => ?_
  refine bind (ownedAccount_heeds ht) fun source _ => ?_
  refine andThen requireActive_heeds fun _ => andThen (resolveCategory_heeds ht) fun category => ?_
  refine bind (checkLimit_heeds ht) fun _ ha => ?_
  exact of_pure ⟨rfl, rfl, fun _ _ => rfl, Money.validate_cents hv, fun _ => Money.validate_nonneg hv,
    fun _ => ha⟩

end

section

variable {t : Terms} (ht : t.Open) {s : Service} {user : UserId}
include ht

theorem replay_heeds {existing : TransactionRecord} :
    Heeds t (replay s existing user) fun _ => True := by
  unfold replay
  dsimp only
  split
  · exact of_throw_bind
  refine andThen of_log fun _ => ?_
  split
  · exact drive_heeds ht
  · exact of_pure trivial

theorem createAndDrive_heeds {new : NewTransaction} (hi : t.may (.store (.insert new))) :
    Heeds t (createAndDrive s new) fun _ => True := by
  unfold createAndDrive
  refine andThen ⟨hi, fun _ _ _ _ => trivial⟩ fun outcome => ?_
  split
  · exact andThen of_log fun _ => drive_heeds ht
  refine andThen of_log fun _ => andThen ⟨ht.plain _ rfl, fun _ _ _ _ => trivial⟩ fun found => ?_
  split
  · exact andThen of_log fun _ => of_throw
  split
  · exact of_throw_bind
  · exact of_pure trivial

omit ht in
theorem requireKey_heeds {key : String} :
    Heeds t (requireKey key) fun _ => trimBlanks key.toList ≠ [] := by
  unfold requireKey
  split
  · exact of_throw
  next hn => exact of_pure hn

theorem submit_heeds {key : String} {check : Program ServiceError NewTransaction}
    {value : NewTransaction → Prop} (hc : Heeds t check value)
    (hi : ∀ new, trimBlanks key.toList ≠ [] → value new → t.may (.store (.insert new))) :
    Heeds t (submit s user key check) fun _ => True := by
  unfold submit
  refine bind requireKey_heeds fun _ hn => ?_
  refine andThen ⟨ht.plain _ rfl, fun _ _ _ _ => trivial⟩ fun found => ?_
  split
  · exact replay_heeds ht
  · exact bind hc fun new hv => createAndDrive_heeds ht (hi new hn hv)

end
end Service
end Settlement
