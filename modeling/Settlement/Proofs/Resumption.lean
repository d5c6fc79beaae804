import Settlement.Proofs.Terms
import Settlement.Proofs.Underway

/-!
A request that is cut off after it stored its record, and whoever takes the record up. However often
the drivers of the record are cut off, the last of them leaves what a request leaves that is not cut
off.
-/

namespace Settlement

def Call.insertion : (call : Call) → Option (NewTransaction × (TransactionRecord → call.Answer))
  | .store (.insert new) => some (new, fun r => .ok (.inserted r))
  | _ => none

/-- Whatever the flow has just stored suits what is left of it. -/
def Flow.OnInsert (P : NewTransaction → TransactionRecord → Flow Call Call.Answer α → Prop) :
    Flow Call Call.Answer α → Prop
  | .done _ | .panic _ => True
  | .note _ rest => rest.OnInsert P
  | .ask call next =>
    (∀ new answer, call.insertion = some (new, answer) → ∀ r, P new r (next (answer r))) ∧
      ∀ a, (next a).OnInsert P

def Terms.storeless : Terms where
  may call := call.insertion = none
  trust _ _ := True

theorem Terms.storeless_open : storeless.Open where
  plain call hp := by
    change call.insertion = none
    unfold Call.insertion
    split
    · cases hp
    · rfl
  keep _ _ _ _ := rfl

namespace Flow

section

variable {P : NewTransaction → TransactionRecord → Flow Call Call.Answer α → Prop}

theorem onInsert_bind {x : Flow Call Call.Answer β} {f : β → Flow Call Call.Answer α}
    {given : β → Prop} (hx : x.Under .storeless given) (hf : ∀ b, given b → (f b).OnInsert P) :
    (x >>= f).OnInsert P := by
  induction x with
  | done b => exact hf b hx
  | panic => trivial
  | note e rest ih => exact ih hx
  | ask call next ih =>
    refine ⟨fun new answer he => ?_, fun a => ih a (hx.2 a trivial)⟩
    cases hx.1.symm.trans he

theorem onInsert_of_under {x : Flow Call Call.Answer α} {given : α → Prop}
    (hx : x.Under .storeless given) : x.OnInsert P := by
  rw [← bind_done x]
  exact onInsert_bind hx fun _ _ => trivial

/-- What comes after the flow stores nothing more. -/
theorem OnInsert.map {x : Flow Call Call.Answer α} {f : α → Task} (hx : x.OnInsert P)
    (hf : ∀ a, (f a).Under .storeless fun _ => True) :
    (x >>= f).OnInsert fun new r y => ∃ z, P new r z ∧ y = z >>= f := by
  induction x with
  | done a => exact onInsert_of_under (hf a)
  | panic => trivial
  | note e rest ih => exact ih hx
  | ask call next ih =>
    exact ⟨fun new answer he r => ⟨_, hx.1 new answer he r, rfl⟩, fun a => ih a (hx.2 a)⟩

theorem OnInsert.mono {P' : NewTransaction → TransactionRecord → Flow Call Call.Answer α → Prop}
    {x : Flow Call Call.Answer α} (hx : x.OnInsert P) (hp : ∀ new r y, P new r y → P' new r y) :
    x.OnInsert P' := by
  induction x with
  | done | panic => trivial
  | note e rest ih => exact ih hx
  | ask call next ih =>
    exact ⟨fun new answer he r => hp _ _ _ (hx.1 new answer he r), fun a => ih a (hx.2 a)⟩

end

theorem OnInsert.after {P : NewTransaction → TransactionRecord → Task → Prop} {x y : Task}
    {replies : List Reply} {σ τ : Stores} (hx : x.OnInsert P)
    (hr : x.after replies σ = some (y, τ)) : y.OnInsert P :=
  after_keeps (I := fun x _ => x.OnInsert P) (fun _ _ _ h => h)
    (fun _ _ _ a _ _ _ _ _ h => h.2 a) hr hx

end Flow

def Drives (s : Service) (new : NewTransaction) (r : TransactionRecord)
    (x : Flow Call Call.Answer (Except ServiceError TransactionView)) : Prop :=
  trimBlanks new.key.toList ≠ [] ∧ ∃ e, x = .note e (s.drive r.id).run

namespace Service

open Program Heeds

variable {s : Service}

/-- The insertion comes first and is the only one. What is stored is driven; what took the key
meanwhile is only looked at. -/
theorem createAndDrive_run (new : NewTransaction) :
    ∃ next, (createAndDrive s new).run = .ask (.store (.insert new)) next ∧
      (∀ a, (next a).Under .storeless fun _ => True) ∧
      (∀ r, ∃ e, next (.ok (.inserted r)) = .note e (s.drive r.id).run) ∧
      ∃ e look, next (.ok .duplicateKey) = .note e (.ask (.store (.getByKey new.key)) look) ∧
        ∀ winner : TransactionRecord, look (.ok (some winner)) = .done
          (if winner.user = new.user then .ok winner.view
            else .error (.notFound "Transaction not found")) := by
  have ht := Terms.storeless_open
  refine ⟨_, rfl, fun a => ?_, fun r => ⟨_, rfl⟩, _, _, rfl, fun winner => ?_⟩
  · rcases a with e | r | ⟨⟩
    · trivial
    · exact Flow.Under.mono (drive_heeds ht) fun _ _ => trivial
    · refine ⟨rfl, fun found _ => ?_⟩
      rcases found with e | ⟨⟩ | winner
      · trivial
      · trivial
      · change Flow.Under .storeless _ (ite (winner.user ≠ new.user) _ _)
        split <;> trivial
  · change ite (winner.user ≠ new.user) _ _ = _
    by_cases hu : winner.user = new.user
    · rw [if_pos hu, if_neg (not_not_intro hu)]
      rfl
    · rw [if_neg hu, if_pos hu]
      rfl

theorem createAndDrive_onInsert {new : NewTransaction} (hk : trimBlanks new.key.toList ≠ []) :
    (createAndDrive s new).run.OnInsert (Drives s) := by
  obtain ⟨next, hrun, hrest, hdrives, -⟩ := createAndDrive_run (s := s) new
  rw [hrun]
  refine ⟨?_, fun a => Flow.onInsert_of_under (hrest a)⟩
  rintro _ _ ⟨⟩ r
  exact ⟨hk, hdrives r⟩

theorem onInsert_bind {P : NewTransaction → TransactionRecord →
      Flow Call Call.Answer (Except ServiceError α) → Prop} {given : β → Prop}
    {p : Program ServiceError β} {f : β → Program ServiceError α} (hp : Heeds .storeless p given)
    (hf : ∀ b, given b → (f b).run.OnInsert P) : (p >>= f).run.OnInsert P := by
  refine Flow.onInsert_bind (f := ExceptT.bindCont f) hp fun r hr => ?_
  cases r with
  | ok b => exact hf b (hr b rfl)
  | error e => trivial

/-- A request stores what it checked, under its own key, and drives the record. -/
theorem submit_onInsert {user : UserId} {key : String} {check : Program ServiceError NewTransaction}
    (hc : Heeds .storeless check fun new => new.key = key) :
    (submit s user key check).run.OnInsert (Drives s) := by
  have ht := Terms.storeless_open
  unfold submit
  refine onInsert_bind requireKey_heeds fun _ hn => ?_
  refine onInsert_bind (show Heeds .storeless (getByKey key) fun _ => True from
    ⟨rfl, fun _ _ _ _ => trivial⟩) fun found _ => ?_
  split
  · exact Flow.onInsert_of_under (replay_heeds ht)
  · exact onInsert_bind hc fun new hnew => createAndDrive_onInsert (hnew ▸ hn)

end Service

/-- What is left of a job that has just stored its record. -/
theorem Job.onInsert (s : Service) (job : Job) :
    (job.task s).OnInsert fun new r x => trimBlanks new.key.toList ≠ [] ∧
      ∃ e, x = .note e ((s.drive r.id).run >>= fun _ => .done ()) := by
  have ht := Terms.storeless_open
  have hr : ∀ {user key} {check : Program ServiceError NewTransaction},
      Heeds .storeless check (fun new => new.key = key ∧ new.user = user ∧ Terms.storeless.Checks new) →
      Flow.OnInsert (fun new r x => trimBlanks new.key.toList ≠ [] ∧
        ∃ e, x = .note e ((s.drive r.id).run >>= fun _ => .done ()))
        ((s.submit user key check).run >>= fun _ => .done ()) := by
    intro user key check hc
    have hs : (s.submit user key check).run.OnInsert (Drives s) :=
      Service.submit_onInsert (hc.mono fun _ h => h.1)
    refine Flow.OnInsert.mono (hs.map fun _ => trivial) ?_
    rintro new r _ ⟨_, ⟨hk, e, rfl⟩, rfl⟩
    exact ⟨hk, e, rfl⟩
  cases job with
  | transfer request user key => exact hr (Service.newTransfer_heeds ht.queries)
  | deposit request user key => exact hr (Service.newDeposit_heeds ht.queries)
  | withdraw request user key => exact hr (Service.newWithdraw_heeds ht.queries)
  | recover id => exact Flow.onInsert_bind (Service.recover_heeds ht) fun _ _ => trivial
  | sweep settings => exact Flow.onInsert_bind (Service.sweep_heeds ht) fun _ _ => trivial

/-- A driver that is cut off leaves the stores grounded, and itself anchored. -/
theorem Flow.Follows.after {x y : Task} {post : Unit → Stage → Prop} {st : Stage}
    {replies : List Reply} {σ τ : Stores} (hx : x.Follows post st) (hg : σ.Grounded)
    (ha : st.Anchored σ) (hr : x.after replies σ = some (y, τ)) :
    ∃ st', y.Follows post st' ∧ τ.Grounded ∧ st'.Anchored τ := by
  refine Flow.after_keeps (I := fun x σ => ∃ st, x.Follows post st ∧ σ.Grounded ∧ st.Anchored σ)
    (fun _ _ _ h => h) ?_ hr ⟨st, hx, hg, ha⟩
  rintro call next reply a eff σ σ' _ hm ⟨st, hx, hg, ha⟩
  obtain ⟨st', ht, hnext⟩ := hx a (hg.expects ha hm)
  obtain ⟨hg', ha'⟩ := hg.turn ha ht hm
  exact ⟨st', hnext, hg', ha'⟩

namespace Underway

section

variable {b b' : Book} {r q : TransactionRecord} {legs : List Leg} {σ σ' : Stores}

/-- A record that was just stored has come no way. -/
theorem start {new : NewTransaction} {now : Instant} {eff : Effect} (hs : σ.table.Sound)
    (hm : σ.meet (.store (.insert new)) (.served now) =
      some (.value (.ok (.inserted r)), eff, σ')) :
    Underway σ'.book r [] r σ' ∧ r.payload = new := by
  have hst := Stores.meet_insert hs hm
  rw [Stores.meet] at hm
  obtain ⟨⟨outcome, τ⟩, _, hv⟩ := Option.map_eq_some_iff.mp hm
  cases hv
  change σ.Stored new (.inserted r) σ' at hst
  cases hst with
  | inserted table book =>
    cases table with
    | inserted now row free rows sound =>
      have hrow : σ'.table.row? r.id = some r := by
        rw [TransactionTable.row?_append rows, free, Option.none_or, if_pos rfl]
      refine ⟨⟨sound, hrow, .refl r, rfl, ?_, List.nil_prefix⟩, by rw [row]; rfl⟩
      rw [row]
      exact ⟨List.nil_prefix, rfl, rfl, fun hc => by cases hc⟩

/-- Calls on other records do not matter. -/
theorem other {call : Call} {a : call.Answer} {reply : Reply} {eff : Effect}
    (h : Underway b r legs q σ) (hm : σ.meet call reply = some (.value a, eff, σ'))
    (hc : call.about ≠ some r.id) (hb : σ'.book = σ.book) : Underway b r legs q σ' := by
  obtain ⟨hch, hab⟩ := Stores.meet_change h.sound hm
  have he : eff.about ≠ some r.id := by
    rcases hab with rfl | hab
    · nofun
    · rwa [hab]
  exact ⟨hch.sound h.sound, (hch.frame he h.row).1, h.same, hb ▸ h.book, h.fits, h.legal⟩

/-- If all legs are granted from the start, those that come next are granted now. -/
theorem granted {leg : Leg} {account : AccountId} (h : Underway b r legs q σ)
    (full : b.grants r r.type.legs = some b') (hl : leg ∈ r.type.legs) (hb : leg.before <+: legs)
    (ha : leg.account r.payload = some account) : ∃ outcome after,
      σ.book.mutate leg.direction account (leg.amount r.payload) ⟨r.id, leg.phase⟩ =
        (.value (.ok outcome), after) := by
  rcases Leg.next_cases hl h.legal hb with ⟨hmem, _⟩ | ⟨_, _, rest, hrest⟩
  · exact ⟨_, _, Book.replays_of_grants h.book leg hmem account ha⟩
  · rw [← hrest, Book.grants_append, Book.grants_append, h.book, Option.bind_some,
      Book.grants_singleton] at full
    obtain ⟨after, hg, _⟩ := Option.bind_eq_some_iff.mp full
    obtain ⟨other, outcome, ha', hm⟩ := Book.grant_eq_some.mp hg
    rw [ha] at ha'
    cases ha'
    exact ⟨outcome, after, hm⟩

end
end Underway

theorem Stores.meet_mutate_served {σ : Stores} {direction : Direction} {id : AccountId}
    {amount : Decimal} {operation : OperationId} {a : Except LedgerError MutationOutcome}
    {after : Book} (h : σ.book.mutate direction id amount operation = (.value a, after))
    (now : Instant) : σ.meet (.ledger (.mutate direction id amount operation)) (.served now) =
      some (.value a, Call.effect (.ledger (.mutate direction id amount operation)) (.value a),
        { σ with book := after }) := by
  simp only [meet, carry, Book.answer, h, Option.map_some]

namespace OnCourse

section

variable {b b' : Book} {r : TransactionRecord} {σ : Stores} {call : Call}

/-- A driver's calls are answered, and the ledger does what it is asked for. -/
theorem answers (full : b.grants r r.type.legs = some b') (h : OnCourse b r σ call) :
    ∃ (reply : Reply) (a : call.Answer) (eff : Effect) (σ' : Stores), reply.faithful = true ∧
      σ.meet call reply = some (.value a, eff, σ') ∧ call.granted a = true := by
  obtain ⟨legs, q, hu, hasks⟩ := h
  cases hasks with
  | leg next before ha =>
    obtain ⟨outcome, after, hm⟩ := hu.granted full next before ha
    exact ⟨.served 0, .ok outcome, _, _, rfl, Stores.meet_mutate_served hm 0, rfl⟩
  | @store call hc =>
    cases call with
    | sumSpending => cases hc
    | insert | get | getByKey | markProcessing | advanceStep | finalize | findStuck | history =>
      exact ⟨.served 0, _, _, _, rfl, rfl, rfl⟩

theorem granted (full : b.grants r r.type.legs = some b') (h : OnCourse b r σ call) {reply : Reply}
    {a : call.Answer} {eff : Effect} {σ' : Stores} (hf : reply.faithful = true)
    (hm : σ.meet call reply = some (.value a, eff, σ')) : call.granted a = true := by
  obtain ⟨legs, q, hu, hasks⟩ := h
  cases hasks with
  | leg next before ha =>
    obtain ⟨outcome, after, hmut⟩ := hu.granted full next before ha
    cases reply with
    | served now =>
      rw [Stores.meet_mutate_served hmut now] at hm
      cases hm
      rfl
    | elsewhere other answer =>
      rw [Stores.meet, dif_neg (by simp [Call.kept])] at hm
      cases hm
    | refused | lost => cases hf
  | store => rfl

end
end OnCourse

/-- Takes up the record `r`: a recovery, or a request of its owner under its key, as long as no attempt
was started on it. -/
def Job.Resumes (r : TransactionRecord) (σ : Stores) : Job → Prop
  | .recover id => id = r.id
  | .transfer _ user key | .deposit _ user key | .withdraw _ user key =>
    user = r.user ∧ key = r.key ∧ ∃ q, σ.table.row? r.id = some q ∧ q.status = .created
  | .sweep _ => False

/-- The record that the job comes to store once its calls got the replies, and what is left of the job
and of the stores then. -/
def Job.inserted? (s : Service) (job : Job) (replies : List Reply) (now : Instant) (σ : Stores) :
    Option (TransactionRecord × Task × Stores) :=
  match (job.task s).after replies σ with
  | some (.ask (.store (.insert new)) next, σ) =>
    match σ.meet (.store (.insert new)) (.served now) with
    | some (.value (.ok (.inserted r)), _, σ) => some (r, next (.ok (.inserted r)), σ)
    | _ => none
  | _ => none

/-- What drivers of the record leave behind, each of them cut off somewhere, one after the other. The
first of them is the task. In between others may call, but not on the ledger or on the record. -/
inductive Interrupted (s : Service) (r : TransactionRecord) (x : Task) (σ : Stores) : Stores → Prop
  | cut {replies : List Reply} {y : Task} {τ : Stores} (faithful : replies.all Reply.faithful = true)
      (run : x.after replies σ = some (y, τ)) : Interrupted s r x σ τ
  | again {job : Job} {replies : List Reply} {y : Task} {τ τ' : Stores}
      (before : Interrupted s r x σ τ) (resumes : job.Resumes r τ)
      (faithful : replies.all Reply.faithful = true)
      (run : (job.task s).after replies τ = some (y, τ')) : Interrupted s r x σ τ'
  | other {call : Call} {a : call.Answer} {reply : Reply} {eff : Effect} {τ τ' : Stores}
      (before : Interrupted s r x σ τ) (answered : τ.meet call reply = some (.value a, eff, τ'))
      (about : call.about ≠ some r.id) (book : τ'.book = τ.book) : Interrupted s r x σ τ'

section

variable {s : Service} {b b' : Book} {r q : TransactionRecord} {legs : List Leg} {σ τ : Stores}
  {x : Task}

theorem Survives.endures {good : Stores → Call → Prop} {I : Stores → Prop}
    {p : Program ServiceError α} (h : Survives good p (fun _ => I) σ) :
    Flow.Endures good (fun _ => I) (p.run >>= fun _ => Flow.done ()) σ := by
  rw [Flow.endures_bind]
  refine Flow.Endures.mono h fun r σ hr => ?_
  cases r with
  | ok a => exact hr
  | error e => exact hr.elim

/-- Whoever takes up a transaction that is underway completes it. -/
theorem Job.endures {job : Job} (hj : job.Resumes r σ) (h : Underway b r legs q σ)
    (hw : r.payload.WellFormed) (hk : trimBlanks r.key.toList ≠ []) :
    (job.task s).Endures (OnCourse b r) (fun _ => Settled b r) σ := by
  have hs : ∀ q', σ.table.row? r.id = some q' → q'.status = .created → q.status = .created := by
    intro q' hq' hc
    rw [h.row] at hq'
    cases hq'
    exact hc
  cases job with
  | transfer request user key | deposit request user key | withdraw request user key =>
    obtain ⟨rfl, rfl, q', hq', hc⟩ := hj
    exact (h.submit hw hk (hs q' hq' hc)).endures
  | recover id =>
    cases hj
    exact (h.recover hw).endures
  | sweep settings => exact hj.elim

/-- Wherever a driver of the transaction is cut off, the transaction is underway. -/
theorem Flow.Endures.underway (h : x.Endures (OnCourse b r) (fun _ => Settled b r) σ) :
    ∃ legs q, Underway b r legs q σ := by
  refine h.cut (I := fun σ => ∃ legs q, Underway b r legs q σ) ?_ ?_
  · rintro σ ⟨q, hu, _⟩
    exact ⟨_, q, hu⟩
  · rintro σ call ⟨legs, q, hu, _⟩
    exact ⟨legs, q, hu⟩

/-- Where all legs are granted, a driver needs to rely on no grant. -/
theorem Flow.Endures.onCourse {y : Task} {post : Unit → Stores → Prop} {replies : List Reply}
    (h : x.Endures (OnCourse b r) post σ) (full : b.grants r r.type.legs = some b')
    (hf : replies.all Reply.faithful = true) (hr : x.after replies σ = some (y, τ)) :
    y.Endures (OnCourse b r) post τ :=
  h.uncut hr hf fun hg hf hm => hg.granted full hf hm

/-- However often its drivers are cut off, the transaction stays underway. -/
theorem Interrupted.underway (h : Interrupted s r x σ τ)
    (hx : x.Endures (OnCourse b r) (fun _ => Settled b r) σ) (hw : r.payload.WellFormed)
    (hk : trimBlanks r.key.toList ≠ []) (full : b.grants r r.type.legs = some b') :
    ∃ legs q, Underway b r legs q τ := by
  induction h with
  | cut faithful run => exact (hx.onCourse full faithful run).underway
  | again before resumes faithful run ih =>
    obtain ⟨legs, q, hu⟩ := ih
    exact ((Job.endures resumes hu hw hk).onCourse full faithful run).underway
  | other before answered about book ih =>
    obtain ⟨legs, q, hu⟩ := ih
    exact ⟨legs, q, hu.other answered about book⟩

/-- A transaction completes in one way. -/
theorem Settled.agree (hσ : Settled b r σ) (hτ : Settled b r τ) :
    τ.book = σ.book ∧ ∃ p q, σ.table.row? r.id = some p ∧ τ.table.row? r.id = some q ∧
      q.status = p.status ∧ q.step = p.step ∧ q.compensation = p.compensation ∧
      q.errorMessage = p.errorMessage := by
  obtain ⟨p, hp, hps⟩ := hσ
  obtain ⟨q, hq, hqs⟩ := hτ
  have hbook : some τ.book = some σ.book := hq.book.symm.trans hp.book
  have hpstep := (hp.fits.ended (by rw [hps]; rfl)).2.2
  have hqstep := (hq.fits.ended (by rw [hqs]; rfl)).2.2
  refine ⟨Option.some.inj hbook, p, q, hp.row, hq.row, hqs.trans hps.symm, ?_, ?_, ?_⟩
  · rw [hpstep, hqstep, hp.type_eq, hq.type_eq]
  · rw [hp.fits.compensation, hq.fits.compensation]
  · rw [hp.fits.message, hq.fits.message]

/-- A job that has just stored its record is at the start of driving it. -/
theorem Job.inserted?_underway {m : Machine} {job : Job} {checks : List Reply} {now : Instant}
    (hm : Reachable s m) (hx : job.inserted? s checks now m.stores = some (r, x, σ)) :
    Underway σ.book r [] r σ ∧ r.payload.WellFormed ∧ trimBlanks r.key.toList ≠ [] ∧
      ∃ e, x = .note e ((s.drive r.id).run >>= fun _ => .done ()) := by
  unfold Job.inserted? at hx
  split at hx
  next new next σ₀ checked =>
    split at hx
    next r eff σ stored =>
      cases hx
      obtain ⟨hkey, hdrives⟩ := ((job.onInsert s).after checked).1 new _ rfl r
      obtain ⟨stages, hmatch⟩ := hm.matched
      obtain ⟨st, hfollows, hground, _⟩ :=
        (job.follows s).after hmatch.staged.grounded.1 trivial checked
      have hnew : new.WellFormed := by
        obtain ⟨_, hturn, _⟩ := hfollows (.ok (.inserted r)) trivial
        cases hturn with
        | look hc => cases hc
        | insert hw => exact hw
      obtain ⟨hu, hpayload⟩ := Underway.start hground.sound stored
      subst hpayload
      exact ⟨hu, hnew, hkey, hdrives⟩
    next => cases hx
  next => cases hx

end

/-- A request stores its record, and left alone it completes, with all its ledger calls granted. Then
however often its drivers are cut off, wherever they are, whoever takes the record up next comes to an
end, and what is stored then of the record and on the ledger is what the request leaves that was left
alone. -/
theorem interrupted_as_uninterrupted {s : Service} {m : Machine} {job again : Job}
    {checks straight : List Reply} {now : Instant} {r : TransactionRecord} {x : Task}
    {σ₁ σ τ : Stores} (hm : Reachable s m)
    (hx : job.inserted? s checks now m.stores = some (r, x, σ₁))
    (hf : straight.all Reply.faithful = true) (hg : x.granted straight σ₁ = true)
    (hs : x.after straight σ₁ = some (.done (), σ)) (hi : Interrupted s r x σ₁ τ)
    (ha : again.Resumes r τ) :
    (∃ τ', (again.task s).Finishes τ τ') ∧ ∀ τ', (again.task s).Finishes τ τ' →
      τ'.book = σ.book ∧ ∃ p q, σ.table.row? r.id = some p ∧ τ'.table.row? r.id = some q ∧
        q.status = p.status ∧ q.step = p.step ∧ q.compensation = p.compensation ∧
        q.errorMessage = p.errorMessage := by
  obtain ⟨hu, hw, hk, e, rfl⟩ := Job.inserted?_underway hm hx
  have hend : Flow.Endures (OnCourse σ₁.book r) (fun _ => Settled σ₁.book r)
      (.note e ((s.drive r.id).run >>= fun _ => .done ())) σ₁ := (hu.drive hw).endures
  obtain ⟨p, hp, hps⟩ := hend.after hs hf hg
  -- The run that is not cut off shows that all legs are granted.
  obtain ⟨legs, q, hτ⟩ := hi.underway hend hw hk hp.book
  have hagain : (again.task s).Endures (OnCourse σ₁.book r) (fun _ => Settled σ₁.book r) τ :=
    Job.endures ha hτ hw hk
  refine ⟨hagain.finishes (OnCourse.answers hp.book), ?_⟩
  rintro τ' ⟨replies, hfr, hrun⟩
  exact Settled.agree ⟨p, hp, hps⟩ (hagain.onCourse hp.book hfr hrun)

def Flow.isDone : Task → Bool
  | .done _ => true
  | _ => false

theorem Flow.eq_done {x : Task} (h : x.isDone = true) : x = .done () := by
  cases x with
  | done => rfl
  | panic | note | ask => cases h

def fortyTransfer : Job := .transfer ⟨1, 2, forty, some 1⟩ 1 "a"

def fortyChecks : List Reply :=
  [.served 0, .served 0, .served 0,
    .elsewhere (.categories (.find 1)) (.ok (some ⟨1, none, "FOOD"⟩)),
    .elsewhere (.limits (.find 1)) (.ok (some ⟨1, hundred, hundred⟩)),
    .elsewhere .now (0 : Int), .served 0]

/-- The transfer is cut off when its debit is applied and not stored, and its first recovery when its
credit is. -/
theorem interrupted_as_uninterrupted_lostSteps : ∃ m r x σ₁ σ τ,
    Reachable plainService m ∧
    fortyTransfer.inserted? plainService fortyChecks 0 m.stores = some (r, x, σ₁) ∧
    x.after (List.replicate 8 (.served 0)) σ₁ = some (.done (), σ) ∧
    Interrupted plainService r x σ₁ τ ∧
    (σ.table.rows.map fun q => (q.status, q.step)) = [(.completed, .creditDone)] ∧
    (τ.table.rows.map fun q => (q.status, q.step)) = [(.processing, .debitDone)] ∧
    ∀ τ', ((Job.recover 1).task plainService).Finishes τ τ' → τ'.book = σ.book ∧
      ∃ p q, σ.table.row? r.id = some p ∧ τ'.table.row? r.id = some q ∧ q.status = p.status ∧
        q.step = p.step ∧ q.compensation = p.compensation ∧ q.errorMessage = p.errorMessage := by
  obtain ⟨m, hm, h⟩ := Option.bind_eq_some_iff.mp (show
    ((Machine.play plainService {} [.upkeep (.openAccount 1 .usd hundred),
        .upkeep (.openAccount 1 .usd .zero)]).bind fun m =>
      (fortyTransfer.inserted? plainService fortyChecks 0 m.stores).bind fun v =>
        (v.2.1.after (List.replicate 8 (.served 0)) v.2.2).bind fun w =>
          (v.2.1.after (List.replicate 3 (.served 0)) v.2.2).bind fun z =>
            (((Job.recover 1).task plainService).after (List.replicate 5 (.served 0)) z.2).map
              fun u => w.1.isDone && v.2.1.granted (List.replicate 8 (.served 0)) v.2.2 &&
                v.1.id == 1 &&
                w.2.table.rows.map (fun q => (q.status, q.step)) == [(.completed, .creditDone)] &&
                u.2.table.rows.map (fun q => (q.status, q.step)) == [(.processing, .debitDone)]) =
      some true by decide +kernel)
  obtain ⟨⟨r, x, σ₁⟩, hx, h⟩ := Option.bind_eq_some_iff.mp h
  obtain ⟨⟨y, σ⟩, hs, h⟩ := Option.bind_eq_some_iff.mp h
  obtain ⟨⟨z, τ₁⟩, hz, h⟩ := Option.bind_eq_some_iff.mp h
  obtain ⟨⟨u, τ⟩, hu, h⟩ := Option.map_eq_some_iff.mp h
  simp only [Bool.and_eq_true, beq_iff_eq] at h
  obtain ⟨⟨⟨⟨hy, hg⟩, hid⟩, hσ⟩, hτ⟩ := h
  cases Flow.eq_done hy
  have hreach := Reachable.empty.play hm
  have hi : Interrupted plainService r x σ₁ τ :=
    .again (.cut rfl hz) (show (Job.recover 1).Resumes r τ₁ from hid.symm) rfl hu
  have ha : (Job.recover 1).Resumes r τ := hid.symm
  exact ⟨m, r, x, σ₁, σ, τ, hreach, hx, hs, hi, hσ, hτ,
    (interrupted_as_uninterrupted hreach hx rfl hg hs hi ha).2⟩

end Settlement
