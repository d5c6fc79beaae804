import Settlement.Proofs.Drivers
import Settlement.Service.Requests
import Settlement.Service.Sweep

/-!
The sweep and the requests follow the stages too: what they ask before a record is stored writes
nothing, and what they store is well formed.
-/

namespace Settlement

open Service Program

section

variable {s : Service} {user : UserId}

theorem getLimits_rests : Rests (getLimits s user) fun _ => True := by
  unfold getLimits
  refine Rests.bind (fun _ => look_follows rfl fun a _ => Rests.any a) fun found _ => ?_
  split
  · exact Rests.of_pure trivial
  · exact Rests.bind Rests.of_log fun _ _ _ => look_follows rfl fun a _ => Rests.any a

theorem checkLimit_rests {amount : Decimal} : Rests (checkLimit s user amount) fun _ => True := by
  unfold checkLimit
  refine Rests.bind getLimits_rests fun limit _ => ?_
  split
  · exact Rests.of_throw_bind
  refine Rests.bind (fun _ _ _ => ⟨_, .look rfl, ⟨none, rfl⟩, trivial⟩) fun now _ => ?_
  refine Rests.bind (fun _ => look_follows rfl fun a _ => Rests.any a) fun spent _ => ?_
  split
  · exact Rests.of_breakOff
  · split
    · exact Rests.bind Rests.of_log fun _ _ => Rests.of_throw
    · exact Rests.of_pure trivial

theorem resolveCategory_rests {id : Option CategoryId} {type : OperationType} :
    Rests (resolveCategory id user type) fun _ => True := by
  unfold resolveCategory
  split
  · exact Rests.of_pure trivial
  split
  · exact Rests.of_throw
  refine Rests.bind (fun _ => look_follows rfl fun a _ => Rests.any a) fun found _ => ?_
  split
  · exact Rests.of_throw
  split
  · exact Rests.bind Rests.of_log fun _ _ => Rests.of_throw_bind
  · exact Rests.of_pure trivial

theorem getRate_rests {source target : Currency} :
    Rests (getRate s source target) fun _ => True := by
  unfold getRate
  split
  · exact Rests.of_pure trivial
  refine Rests.bind (fun _ _ _ => ⟨_, .look rfl, ⟨none, rfl⟩, trivial⟩) fun kept _ => ?_
  split
  · exact Rests.of_pure trivial
  refine Rests.bind Rests.of_log fun _ _ => ?_
  refine Rests.bind (fun _ => look_follows rfl fun a _ => Rests.any a) fun response _ => ?_
  split
  · exact Rests.of_throw
  split
  · exact Rests.of_throw_bind
  · exact Rests.bind (fun _ _ _ => ⟨_, .look rfl, ⟨none, rfl⟩, trivial⟩) fun _ _ =>
      Rests.of_pure trivial

theorem existingAccount_rests {account : AccountId} :
    Rests (existingAccount account) fun found => found.id = account := by
  refine Rests.of_mapError fun last => look_follows rfl fun a ha => ?_
  match a, ha with
  | .ok found, ha => exact ⟨⟨none, rfl⟩, ha⟩
  | .error e, _ => exact ⟨none, rfl⟩

theorem ownedAccount_rests {account : AccountId} :
    Rests (ownedAccount account user) fun found => found.id = account := by
  unfold ownedAccount
  refine Rests.bind existingAccount_rests fun found hf => ?_
  split
  · exact Rests.bind Rests.of_log fun _ _ => Rests.of_throw_bind
  · exact Rests.of_pure hf

theorem requireActive_rests {account : Account} : Rests (requireActive account) fun _ => True := by
  unfold requireActive
  split
  · exact Rests.of_pure trivial
  · exact Rests.of_throw

theorem validAmount_rests {amount : Decimal} : Rests (validAmount amount) fun _ => True :=
  Rests.of_known fun _ _ => trivial

theorem converted_rests {amount rate : Decimal} : Rests (converted amount rate) fun _ => True := by
  unfold converted
  split
  · exact Rests.of_pure trivial
  · exact Rests.of_breakOff

/-- A transfer is stored with the accounts it was checked with, and those differ. -/
theorem newTransfer_rests {request : TransferRequest} {key : String} :
    Rests (newTransfer s request user key) NewTransaction.WellFormed := by
  unfold newTransfer
  refine Rests.bind validAmount_rests fun amount _ => ?_
  split
  · exact Rests.of_throw_bind
  next hne =>
    refine Rests.bind ownedAccount_rests fun source hs => ?_
    refine Rests.bind existingAccount_rests fun target ht => ?_
    refine Rests.bind requireActive_rests fun _ _ => ?_
    refine Rests.bind requireActive_rests fun _ _ => ?_
    refine Rests.bind (Rests.of_mapError getRate_rests) fun rate _ => ?_
    refine Rests.bind converted_rests fun targetAmount _ => ?_
    refine Rests.bind resolveCategory_rests fun category _ => ?_
    refine Rests.bind checkLimit_rests fun _ _ => ?_
    refine Rests.of_pure ?_
    show source.id ≠ target.id
    rw [hs, ht]
    exact hne

theorem newDeposit_rests {request : DepositRequest} {key : String} :
    Rests (newDeposit request user key) NewTransaction.WellFormed := by
  unfold newDeposit
  refine Rests.bind validAmount_rests fun amount _ => ?_
  refine Rests.bind ownedAccount_rests fun target _ => ?_
  refine Rests.bind requireActive_rests fun _ _ => ?_
  refine Rests.bind resolveCategory_rests fun _ _ => ?_
  exact Rests.of_pure trivial

theorem newWithdraw_rests {request : WithdrawRequest} {key : String} :
    Rests (newWithdraw s request user key) NewTransaction.WellFormed := by
  unfold newWithdraw
  refine Rests.bind validAmount_rests fun amount _ => ?_
  refine Rests.bind ownedAccount_rests fun source _ => ?_
  refine Rests.bind requireActive_rests fun _ _ => ?_
  refine Rests.bind resolveCategory_rests fun category _ => ?_
  refine Rests.bind checkLimit_rests fun _ _ => ?_
  exact Rests.of_pure trivial

theorem replay_rests {existing : TransactionRecord} :
    Rests (replay s existing user) fun _ => True := by
  unfold replay
  dsimp only
  split
  · exact Rests.of_throw_bind
  refine Rests.bind Rests.of_log fun _ _ => ?_
  split
  · exact drive_rests
  · exact Rests.of_pure trivial

theorem createAndDrive_rests {new : NewTransaction} (hw : new.WellFormed) :
    Rests (createAndDrive s new) fun _ => True := by
  unfold createAndDrive
  refine Rests.bind (fun _ a _ => ⟨_, .insert hw, Rests.any a⟩) fun outcome _ => ?_
  split
  · exact Rests.bind Rests.of_log fun _ _ => drive_rests
  refine Rests.bind Rests.of_log fun _ _ => ?_
  refine Rests.bind (fun _ => look_follows rfl fun a _ => Rests.any a) fun found _ => ?_
  split
  · exact Rests.bind Rests.of_log fun _ _ => Rests.of_throw
  split
  · exact Rests.of_throw_bind
  · exact Rests.of_pure trivial

theorem requireKey_rests {key : String} : Rests (requireKey key) fun _ => True := by
  unfold requireKey
  split
  · exact Rests.of_throw
  · exact Rests.of_pure trivial

theorem submit_rests {key : String} {check : Program ServiceError NewTransaction}
    (hc : Rests check NewTransaction.WellFormed) :
    Rests (submit s user key check) fun _ => True := by
  unfold submit
  refine Rests.bind requireKey_rests fun _ _ => ?_
  refine Rests.bind (fun _ => look_follows rfl fun a _ => Rests.any a) fun found _ => ?_
  split
  · exact replay_rests
  · exact Rests.bind hc fun new hw => createAndDrive_rests hw

theorem recoverAll_rests (stuck : List TransactionRecord) (report : SweepReport) :
    Rests (recoverAll s stuck report) fun _ => True := by
  induction stuck generalizing report with
  | nil => exact Rests.of_pure trivial
  | cons tx rest ih =>
    unfold recoverAll
    refine Rests.bind Rests.of_log fun _ _ => ?_
    refine Rests.bind (Rests.of_attempt recover_rests) fun result _ => ?_
    split
    · exact ih _
    · exact Rests.bind Rests.of_log fun _ _ => ih _

theorem cutoff_rests {timeout : Nat} : Rests (cutoff timeout) fun _ => True := by
  unfold cutoff
  split
  · exact Rests.of_throw_bind
  refine Rests.bind (fun _ _ _ => ⟨_, .look rfl, ⟨none, rfl⟩, trivial⟩) fun now _ => ?_
  dsimp only
  split
  · exact Rests.of_breakOff
  · exact Rests.of_pure trivial

theorem sweep_rests {settings : SweepSettings} : Rests (sweep s settings) fun _ => True := by
  unfold sweep sweepSince
  refine Rests.bind cutoff_rests fun instant _ => ?_
  refine Rests.bind (fun _ => look_follows rfl fun a _ => Rests.any a) fun stuck _ => ?_
  split
  · exact Rests.bind Rests.of_log fun _ _ => Rests.of_pure trivial
  refine Rests.bind Rests.of_log fun _ _ => ?_
  refine Rests.bind (recoverAll_rests stuck _) fun report _ => ?_
  exact Rests.bind Rests.of_log fun _ _ => Rests.of_pure trivial

end
end Settlement
