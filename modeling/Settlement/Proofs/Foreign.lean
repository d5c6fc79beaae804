import Settlement.Proofs.Machine

/-!
What a caller learns of an account of somebody else. Main statement: the same as of an account that
does not exist, except while its lock is held.
-/

namespace Settlement

/-- What answers the calls that are neither on money nor on records, with a state of its own and a
clock. -/
structure Elsewhere (T : Type) where
  clock : T → Instant
  answer : (call : Call) → T → Flow.Outcome call.Answer × T

def Elsewhere.act {T : Type} (around : Elsewhere T) (call : Call) (w : Stores × T) :
    Flow.Outcome call.Answer × Stores × T :=
  match w.1.carry (around.clock w.2) call with
  | some (outcome, σ) => (outcome, σ, w.2)
  | none =>
    let (outcome, t) := around.answer call w.2
    (outcome, w.1, t)

def Stores.without (σ : Stores) (id : AccountId) : Stores :=
  { σ with book :=
    { σ.book with
      accounts := σ.book.accounts.filter (·.id != id), held := σ.book.held.filter (· != id) } }

/-- What a caller tries on an account, with all that may come along with it. -/
inductive Approach where
  | transfer (target : AccountId) (amount : Decimal) (category : Option CategoryId) (key : String)
  | deposit (amount : Decimal) (category : Option CategoryId) (key : String)
  | withdraw (amount : Decimal) (category : Option CategoryId) (key : String)
  | history (page : PageRequest)

namespace Approach

def program (s : Service) (id : AccountId) (user : UserId) :
    Approach → Program ServiceError (TransactionView ⊕ Page TransactionView)
  | transfer target amount category key => .inl <$> s.transfer ⟨id, target, amount, category⟩ user key
  | deposit amount category key => .inl <$> s.deposit ⟨id, amount, category⟩ user key
  | withdraw amount category key => .inl <$> s.withdraw ⟨id, amount, category⟩ user key
  | history page => .inr <$> s.accountHistory id user page

def key? : Approach → Option String
  | transfer _ _ _ key | deposit _ _ key | withdraw _ _ key => some key
  | history _ => none

def amountFault (amount : Decimal) : Option ServiceError :=
  match Money.validate amount with
  | .error e => some e.toService
  | .ok _ => none

def keyFault (key : String) (rest : Option ServiceError) : Option ServiceError :=
  if trimBlanks key.toList = [] then some (.badRequest "Idempotency-Key header is required") else rest

/-- What is wrong with the approach whatever the account is: found before the account is looked at. -/
def fault (id : AccountId) : Approach → Option ServiceError
  | transfer target amount _ key =>
    keyFault key ((amountFault amount).or
      (if id = target then some (.badRequest "Source and target account cannot be the same") else none))
  | deposit amount _ key | withdraw amount _ key => keyFault key (amountFault amount)
  | history _ => none

end Approach

namespace Flow

section

variable {T : Type} {around : Elsewhere T} {w : Stores × T} {α : Type}

def Ends (x : Flow Call Call.Answer α) (around : Elsewhere T) (w : Stores × T) (value : α) : Prop :=
  ∃ events, x.run around.act w = (.value value, events, w)

theorem ends_done (value : α) : (Flow.done value).Ends around w value := ⟨[], rfl⟩

theorem Ends.note {e : Log.Event} {rest : Flow Call Call.Answer α} {value : α}
    (h : rest.Ends around w value) : (Flow.note e rest).Ends around w value := by
  obtain ⟨events, h⟩ := h
  exact ⟨e :: events, by simp only [run, h]⟩

theorem Ends.getByKey {key : String}
    {next : Except ServiceError (Option TransactionRecord) → Flow Call Call.Answer α} {value : α}
    (h : (next (.ok (w.1.table.rowByKey? key))).Ends around w value) :
    (Flow.ask (.store (.getByKey key)) next).Ends around w value := h

theorem Ends.getAccount {id : AccountId} {next : Except LedgerError Account → Flow Call Call.Answer α}
    {value : α} (h : (next (w.1.book.lock id)).Ends around w value) :
    (Flow.ask (.ledger (.getAccount id)) next).Ends around w value := h

/-- What a flow comes to is passed on. -/
theorem run_map {β : Type} (g : α → β) {x : Flow Call Call.Answer α} {value : α}
    {events : List Log.Event} {w' : Stores × T} (h : x.run around.act w = (.value value, events, w')) :
    (x >>= fun a => .done (g a)).run around.act w = (.value (g value), events, w') := by
  induction x generalizing w events with
  | done =>
    cases h
    rfl
  | panic => cases h
  | note e rest ih =>
    rcases hr : rest.run around.act w with ⟨outcome, later, w₁⟩
    simp only [run, hr, Prod.mk.injEq] at h
    obtain ⟨rfl, rfl, rfl⟩ := h
    simp only [note_bind, run, ih hr]
  | ask call next ih =>
    rcases ha : around.act call w with ⟨outcome, w₁⟩
    cases outcome with
    | value a =>
      simp only [run, ha] at h
      simp only [ask_bind, run, ha]
      exact ih a h
    | panic message =>
      simp only [run, ha, Prod.mk.injEq] at h
      cases h.1

end
end Flow

def Book.hidden (b : Book) (id : AccountId) : ServiceError :=
  if (b.account? id).isSome ∧ id ∈ b.held then (LedgerError.lockConflict id).toService
  else .notFound "Account not found"

section

variable {T : Type} {around : Elsewhere T} {w : Stores × T} {α : Type} {id : AccountId}
  {user : UserId} {key : String}

namespace Service

open Program Fallible

/-- An account of somebody else, or none, is where a program ends. -/
theorem ownedAccount_ends (hid : ∀ account, w.1.book.account? id = some account → account.owner ≠ user)
    (f : Account → Program ServiceError α) :
    (ownedAccount id user >>= f).run.Ends around w (.error (w.1.book.hidden id)) := by
  refine Flow.Ends.getAccount ?_
  unfold Book.lock Book.hidden
  cases ha : w.1.book.account? id with
  | none => exact Flow.ends_done _
  | some account =>
    by_cases hh : id ∈ w.1.book.held
    · simp only [hh, Option.isSome_some, and_self, if_true]
      exact Flow.ends_done _
    · simp only [hh, and_false, if_false]
      dsimp only [Flow.bind, Except.mapError, ExceptT.bindCont]
      rw [if_pos (hid account ha)]
      exact (Flow.ends_done _).note

/-- A request under a new key ends where its check does. -/
theorem submit_ends (s : Service) {check : Program ServiceError NewTransaction}
    {fault : Option ServiceError} {e : ServiceError} (hnew : w.1.table.rowByKey? key = none)
    (h : (check >>= createAndDrive s).run.Ends around w (.error (fault.getD e))) :
    (submit s user key check).run.Ends around w
      (.error ((Approach.keyFault key fault).getD e)) := by
  unfold submit requireKey Approach.keyFault
  split
  · exact Flow.ends_done _
  · refine Flow.Ends.getByKey ?_
    rw [hnew]
    exact h

theorem map_ends {β : Type} (g : α → β) {p : Program ServiceError α} {e : ServiceError}
    (h : p.run.Ends around w (.error e)) : (g <$> p).run.Ends around w (.error e) := by
  obtain ⟨events, h⟩ := h
  rw [ExceptT.run_map, map_eq_pure_bind]
  exact ⟨events, Flow.run_map (Except.map g) h⟩

section

variable {e : ServiceError} (s : Service)

theorem validAmount_ends {amount : Decimal} {g : Decimal → Program ServiceError α}
    (h : ∀ accepted, (g accepted).run.Ends around w (.error e)) :
    (validAmount amount >>= g).run.Ends around w (.error ((Approach.amountFault amount).getD e)) := by
  unfold validAmount Approach.amountFault
  cases Money.validate amount with
  | error refused => exact Flow.ends_done _
  | ok accepted => exact h accepted

variable (hid : ∀ account, w.1.book.account? id = some account → account.owner ≠ user)

include hid

theorem newTransfer_ends (target : AccountId) (amount : Decimal) (category : Option CategoryId) :
    (newTransfer s ⟨id, target, amount, category⟩ user key >>= createAndDrive s).run.Ends around w
      (.error (((Approach.amountFault amount).or
        (if id = target then some (.badRequest "Source and target account cannot be the same")
          else none)).getD (w.1.book.hidden id))) := by
  unfold newTransfer
  rw [bind_assoc, Option.getD_or]
  refine validAmount_ends fun accepted => ?_
  by_cases ht : id = target
  · rw [if_pos ht, if_pos ht]
    exact Flow.ends_done _
  · rw [if_neg ht, if_neg ht]
    simp only [pure_bind, bind_assoc]
    exact ownedAccount_ends hid _

theorem newDeposit_ends (amount : Decimal) (category : Option CategoryId) :
    (newDeposit ⟨id, amount, category⟩ user key >>= createAndDrive s).run.Ends around w
      (.error ((Approach.amountFault amount).getD (w.1.book.hidden id))) := by
  unfold newDeposit
  rw [bind_assoc]
  refine validAmount_ends fun accepted => ?_
  rw [bind_assoc]
  exact ownedAccount_ends hid _

theorem newWithdraw_ends (amount : Decimal) (category : Option CategoryId) :
    (newWithdraw s ⟨id, amount, category⟩ user key >>= createAndDrive s).run.Ends around w
      (.error ((Approach.amountFault amount).getD (w.1.book.hidden id))) := by
  unfold newWithdraw
  rw [bind_assoc]
  refine validAmount_ends fun accepted => ?_
  rw [bind_assoc]
  exact ownedAccount_ends hid _

end

end Service

/-- An approach to an account that is not the caller's ends where the account is looked at. -/
theorem Approach.ends (approach : Approach) (s : Service)
    (hid : ∀ account, w.1.book.account? id = some account → account.owner ≠ user)
    (hnew : ∀ key, approach.key? = some key → w.1.table.rowByKey? key = none) :
    (approach.program s id user).run.Ends around w
      (.error ((approach.fault id).getD (w.1.book.hidden id))) := by
  cases approach with
  | transfer target amount category key =>
    exact Service.map_ends _ (Service.submit_ends s (hnew key rfl)
      (Service.newTransfer_ends s hid target amount category))
  | deposit amount category key =>
    exact Service.map_ends _ (Service.submit_ends s (hnew key rfl)
      (Service.newDeposit_ends s hid amount category))
  | withdraw amount category key =>
    exact Service.map_ends _ (Service.submit_ends s (hnew key rfl)
      (Service.newWithdraw_ends s hid amount category))
  | history page => exact Service.map_ends _ (Service.ownedAccount_ends hid _)

section

variable {σ : Stores} {t : T} {account : Account}

theorem Stores.without_account? (σ : Stores) (id : AccountId) :
    (σ.without id).book.account? id = none := by
  simp [Stores.without, Book.account?]

/-- An account of somebody else is answered for like one that does not exist, in all requests for it
and in surroundings of any kind, and nothing is changed. Only while its lock is held does the answer
tell of it, unless the request is at fault anyway. -/
theorem foreign_as_missing_iff (s : Service) (approach : Approach)
    (hx : σ.book.account? id = some account) (hu : account.owner ≠ user)
    (hnew : ∀ key, approach.key? = some key → σ.table.rowByKey? key = none) :
    ∃ seen missing : ServiceError,
      (approach.program s id user).run.Ends around (σ, t) (.error seen) ∧
      (approach.program s id user).run.Ends around (σ.without id, t) (.error missing) ∧
      missing = (approach.fault id).getD (.notFound "Account not found") ∧
      seen = (approach.fault id).getD (if id ∈ σ.book.held then (LedgerError.lockConflict id).toService
        else .notFound "Account not found") ∧
      (seen = missing ↔ id ∉ σ.book.held ∨ (approach.fault id).isSome) := by
  have hseen : ∀ found, σ.book.account? id = some found → found.owner ≠ user := by
    intro found hf
    rw [hx] at hf
    cases hf
    exact hu
  have hmissing : ∀ found, (σ.without id).book.account? id = some found → found.owner ≠ user := by
    intro found hf
    rw [σ.without_account? id] at hf
    cases hf
  have hhidden : (σ.without id).book.hidden id = .notFound "Account not found" := by
    rw [Book.hidden, σ.without_account? id]
    rfl
  have hshown : σ.book.hidden id = if id ∈ σ.book.held then (LedgerError.lockConflict id).toService
      else .notFound "Account not found" := by
    rw [Book.hidden, hx]
    simp
  refine ⟨_, _, approach.ends s hseen hnew, approach.ends s hmissing hnew, by rw [hhidden],
    by rw [hshown], ?_⟩
  rw [hhidden, hshown]
  cases approach.fault id with
  | some e => simp
  | none =>
    by_cases hh : id ∈ σ.book.held
    · simp [hh, LedgerError.toService]
    · simp [hh]

end
end

def silence : Elsewhere Unit := ⟨fun _ => 0, fun _ t => (.panic "Unreachable", t)⟩

def heldAccount : Stores where
  book := { (Book.openAccount {} 2 .usd hundred).2 with held := [1] }

def strangersDeposit : Approach := .deposit forty none "a"

theorem heldAccount_found : heldAccount.book.account? 1 = some ⟨1, 2, .usd, hundred, .active⟩ := by
  decide +kernel

theorem heldAccount_unkeyed (key : String) (_ : strangersDeposit.key? = some key) :
    heldAccount.table.rowByKey? key = none := rfl

/-- Who is told of a conflict knows that there is an account. -/
theorem told_of_heldAccount : ∃ seen missing : ServiceError,
    (strangersDeposit.program plainService 1 1).run.Ends silence (heldAccount, ()) (.error seen) ∧
    (strangersDeposit.program plainService 1 1).run.Ends silence (heldAccount.without 1, ())
      (.error missing) ∧
    seen = .conflict "Account 1 is locked by another operation" ∧
    missing = .notFound "Account not found" ∧ seen ≠ missing := by
  have hseen : (strangersDeposit.program plainService 1 1).run.Ends silence (heldAccount, ())
      (.error ((strangersDeposit.fault 1).getD (heldAccount.book.hidden 1))) :=
    Approach.ends strangersDeposit plainService (by rw [heldAccount_found]; simp) heldAccount_unkeyed
  have hmissing : (strangersDeposit.program plainService 1 1).run.Ends silence
      (heldAccount.without 1, ())
      (.error ((strangersDeposit.fault 1).getD ((heldAccount.without 1).book.hidden 1))) :=
    Approach.ends strangersDeposit plainService (by rw [heldAccount.without_account? 1]; simp)
      heldAccount_unkeyed
  exact ⟨_, _, hseen, hmissing, by decide +kernel, by decide +kernel, by decide +kernel⟩

theorem foreign_as_missing_iff_heldAccount :
    heldAccount.book.account? 1 = some ⟨1, 2, .usd, hundred, .active⟩ ∧ (2 : UserId) ≠ 1 ∧
    (∀ key, strangersDeposit.key? = some key → heldAccount.table.rowByKey? key = none) ∧
    ∃ seen missing : ServiceError,
      (strangersDeposit.program plainService 1 1).run.Ends silence (heldAccount, ()) (.error seen) ∧
      (strangersDeposit.program plainService 1 1).run.Ends silence (heldAccount.without 1, ())
        (.error missing) ∧
      (seen = missing ↔ 1 ∉ heldAccount.book.held ∨ (strangersDeposit.fault 1).isSome) := by
  have hu : (2 : UserId) ≠ 1 := by decide
  obtain ⟨seen, missing, hseen, hmissing, -, -, hiff⟩ :=
    foreign_as_missing_iff plainService strangersDeposit heldAccount_found hu heldAccount_unkeyed
  exact ⟨heldAccount_found, hu, heldAccount_unkeyed, seen, missing, hseen, hmissing, hiff⟩

end Settlement
