import Settlement.Proofs.Resumption
import Settlement.Proofs.Schedules

/-!
A key that has a record already. Its owner is answered from the record, which does not change once it
is terminal, and nobody else learns that there is one.
-/

namespace Settlement

inductive Request where
  | transfer (request : TransferRequest)
  | deposit (request : DepositRequest)
  | withdraw (request : WithdrawRequest)

namespace Request

def program (s : Service) (user : UserId) (key : String) :
    Request → Program ServiceError TransactionView
  | transfer request => s.transfer request user key
  | deposit request => s.deposit request user key
  | withdraw request => s.withdraw request user key

/-- Each request submits what it accepted, under its key and for its user. -/
theorem program_eq_submit (request : Request) {t : Terms} (ht : t.Queries) (s : Service)
    (key : String) (user : UserId) : ∃ check, request.program s user key = s.submit user key check ∧
      Heeds t check fun new => new.key = key ∧ new.user = user ∧ t.Checks new := by
  cases request with
  | transfer request => exact ⟨_, rfl, Service.newTransfer_heeds ht⟩
  | deposit request => exact ⟨_, rfl, Service.newDeposit_heeds ht⟩
  | withdraw request => exact ⟨_, rfl, Service.newWithdraw_heeds ht⟩

end Request

namespace Flow

/-- What the flow comes to once its calls got the replies, all of them: its value, the calls, and what
is left of the stores. -/
def outcome : Flow Call Call.Answer α → List Reply → Stores → Option (α × List Call × Stores)
  | .done a, [], σ => some (a, [], σ)
  | .note _ rest, replies, σ => rest.outcome replies σ
  | .ask call next, reply :: replies, σ =>
    match σ.meet call reply with
    | some (.value a, _, σ) =>
      ((next a).outcome replies σ).map fun (value, calls, σ) => (value, call :: calls, σ)
    | _ => none
  | _, _, _ => none

/-- All that the flow does is to look the key up, and then it has the value. -/
def LooksUp (x : Flow Call Call.Answer α) (key : String) (σ : Stores) (value : α) : Prop :=
  ∀ now, x.outcome [.served now] σ = some (value, [.store (.getByKey key)], σ)

/-- Made in this order and answered in any way, the calls take the flow to another one. -/
inductive Leads : Flow Call Call.Answer α → List Call → Flow Call Call.Answer α → Prop
  | here {x : Flow Call Call.Answer α} : Leads x [] x
  | note {e : Log.Event} {rest y : Flow Call Call.Answer α} {calls : List Call}
      (later : Leads rest calls y) : Leads (.note e rest) calls y
  | ask {call : Call} {next : call.Answer → Flow Call Call.Answer α} {calls : List Call}
      {y : Flow Call Call.Answer α} (a : call.Answer) (later : Leads (next a) calls y) :
      Leads (.ask call next) (call :: calls) y

section

variable {t : Terms} {calls : List Call} {call : Call}

/-- A flow keeps to its terms wherever it goes. -/
theorem Under.leads {x y : Flow Call Call.Answer α} {post : α → Prop} (hx : x.Under t post)
    (ht : ∀ call a, t.trust call a) (h : x.Leads calls y) : y.Under t post := by
  induction h with
  | here => exact hx
  | note _ ih => exact ih hx
  | ask a _ ih => exact ih (hx.2 a (ht _ a))

/-- A call that is none of the terms of the first part comes after it. -/
theorem leads_bind {x : Flow Call Call.Answer β} {f : β → Flow Call Call.Answer α}
    {given : β → Prop} {next : call.Answer → Flow Call Call.Answer α} (hx : x.Under t given)
    (ht : ∀ call a, t.trust call a) (hn : ¬t.may call)
    (h : (x >>= f).Leads calls (.ask call next)) :
    ∃ b before after, given b ∧ calls = before ++ after ∧ (∀ c ∈ before, t.may c) ∧
      (f b).Leads after (.ask call next) := by
  induction x generalizing calls with
  | done b => exact ⟨b, [], calls, hx, rfl, by simp, h⟩
  | panic => cases h
  | note e rest ih =>
    cases h with
    | note later => exact ih hx later
  | ask q next' ih =>
    cases h with
    | here => exact absurd hx.1 hn
    | ask a later =>
      obtain ⟨b, before, after, hb, rfl, hc, hl⟩ := ih a (hx.2 a (ht q a)) later
      exact ⟨b, q :: before, after, hb, rfl, List.forall_mem_cons.mpr ⟨hx.1, hc⟩, hl⟩

end
end Flow

/-- The same for programs. -/
theorem Heeds.leads_bind {t : Terms} {calls : List Call} {call : Call} {p : Program ε β}
    {f : β → Program ε α} {given : β → Prop} {next : call.Answer → Flow Call Call.Answer (Except ε α)}
    (hp : Heeds t p given) (ht : ∀ call a, t.trust call a) (hn : ¬t.may call)
    (h : (p >>= f).run.Leads calls (.ask call next)) :
    ∃ b before after, given b ∧ calls = before ++ after ∧ (∀ c ∈ before, t.may c) ∧
      (f b).run.Leads after (.ask call next) := by
  obtain ⟨r, before, after, hr, hcalls, hc, hl⟩ :=
    Flow.leads_bind (f := ExceptT.bindCont f) hp ht hn h
  cases r with
  | ok b => exact ⟨b, before, after, hr b rfl, hcalls, hc, hl⟩
  | error e => cases hl

namespace Stores

section

variable {σ : Stores} {r : TransactionRecord}

theorem meet_getByKey {key : String} (hr : σ.table.rowByKey? key = some r) (now : Instant) :
    σ.meet (.store (.getByKey key)) (.served now) = some (.value (.ok (some r)), .nothing, σ) := by
  rw [← hr]
  rfl

theorem meet_duplicate {new : NewTransaction} (hr : σ.table.rowByKey? new.key = some r)
    (now : Instant) :
    σ.meet (.store (.insert new)) (.served now) = some (.value (.ok .duplicateKey), .nothing, σ) := by
  obtain ⟨id, hid, -⟩ := Option.bind_eq_some_iff.mp hr
  have hi : σ.table.insert new now = (.duplicateKey, σ.table) := by
    rw [TransactionTable.insert, if_pos (Option.isSome_of_mem hid)]
  simp only [meet, carry, TransactionTable.answer, hi]
  rfl

end
end Stores

def Terms.reading : Terms where
  may call := call.writes = false
  trust _ _ := True

theorem Terms.reading_queries : reading.Queries := ⟨fun _ _ hw => hw, fun _ _ _ _ => rfl⟩

namespace Service

open Program Heeds

section

variable {s : Service} {user : UserId} {key : String} {check : Program ServiceError NewTransaction}
  {σ : Stores} {r : TransactionRecord}

/-- A key that has a record is answered from the record. -/
theorem submit_outcome (hk : trimBlanks key.toList ≠ []) (hr : σ.table.rowByKey? key = some r)
    (now : Instant) (replies : List Reply) :
    (submit s user key check).run.outcome (.served now :: replies) σ =
      ((replay s r user).run.outcome replies σ).map fun (value, calls, σ) =>
        (value, .store (.getByKey key) :: calls, σ) := by
  unfold submit requireKey
  rw [if_neg hk]
  change Flow.outcome (.ask (.store (.getByKey key)) _) _ _ = _
  rw [Flow.outcome, Stores.meet_getByKey hr]
  rfl

theorem submit_foreign (hk : trimBlanks key.toList ≠ []) (hr : σ.table.rowByKey? key = some r)
    (hu : r.user ≠ user) : (submit s user key check).run.LooksUp key σ
      (.error (.notFound "Transaction not found")) := by
  intro now
  rw [submit_outcome hk hr]
  unfold replay
  dsimp only
  rw [if_pos hu]
  rfl

theorem submit_terminal (hk : trimBlanks key.toList ≠ []) (hr : σ.table.rowByKey? key = some r)
    (hu : r.user = user) (ht : r.status.isTerminal = true) :
    (submit s user key check).run.LooksUp key σ (.ok r.view) := by
  intro now
  have hc : r.status ≠ .created := by
    intro hc
    rw [hc] at ht
    cases ht
  rw [submit_outcome hk hr]
  unfold replay
  dsimp only
  rw [if_neg (not_not_intro hu), if_neg hc]
  rfl

/-- A request reads only until it stores a record. -/
theorem submit_leads {calls : List Call} {new : NewTransaction}
    {next : (Call.store (.insert new)).Answer →
      Flow Call Call.Answer (Except ServiceError TransactionView)}
    (hc : Heeds .reading check fun new => new.key = key ∧ new.user = user)
    (h : (submit s user key check).run.Leads calls (.ask (.store (.insert new)) next)) :
    (∀ c ∈ calls, c.writes = false) ∧ new.key = key ∧ new.user = user ∧
      (createAndDrive s new).run = .ask (.store (.insert new)) next := by
  have hn : ¬Terms.reading.may (.store (.insert new)) := by simp [Terms.reading, Call.writes]
  have htrust : ∀ call a, Terms.reading.trust call a := fun _ _ => trivial
  have hget : Heeds .reading (getByKey key) fun _ => True := ⟨rfl, fun _ _ _ _ => trivial⟩
  unfold submit at h
  obtain ⟨_, keyed, _, -, rfl, hkeyed, h⟩ := requireKey_heeds.leads_bind htrust hn h
  obtain ⟨found, looked, _, -, rfl, hlooked, h⟩ := hget.leads_bind htrust hn h
  cases found with
  | some existing =>
    -- A record that is found is driven, and drivers store none.
    have hr := (replay_heeds Terms.storeless_open).leads (fun _ _ => trivial) h
    cases hr.1
  | none =>
    obtain ⟨checked, asked, rest, ⟨rfl, rfl⟩, rfl, hasked, h⟩ := hc.leads_bind htrust hn h
    obtain ⟨after, hrun, hrest, -⟩ := createAndDrive_run (s := s) checked
    rw [hrun] at h
    cases h with
    | here =>
      refine ⟨?_, rfl, rfl, hrun⟩
      simpa only [List.forall_mem_append, List.append_nil] using ⟨hkeyed, hlooked, hasked⟩
    | ask a later => cases ((hrest a).leads (fun _ _ => trivial) later).1

/-- A request that lost its key to another one is answered from the record that took it. -/
theorem createAndDrive_duplicate {new : NewTransaction}
    {next : (Call.store (.insert new)).Answer →
      Flow Call Call.Answer (Except ServiceError TransactionView)}
    (h : (createAndDrive s new).run = .ask (.store (.insert new)) next)
    (hr : σ.table.rowByKey? new.key = some r) :
    (next (.ok .duplicateKey)).LooksUp new.key σ (if r.user = new.user then .ok r.view
      else .error (.notFound "Transaction not found")) := by
  obtain ⟨next', hrun, -, -, e, look, hnext, hlook⟩ := createAndDrive_run (s := s) new
  cases hrun.symm.trans h
  intro now
  rw [hnext, Flow.outcome, Flow.outcome, Stores.meet_getByKey hr]
  dsimp only
  rw [hlook]
  rfl

end
end Service

def Terms.keyed : Terms where
  may call := ∀ new answer, call.insertion = some (new, answer) → trimBlanks new.key.toList ≠ []
  trust _ _ := True

theorem Terms.keyed_open : keyed.Open where
  plain call hp new answer he := by
    have hn : call.insertion = none := storeless_open.plain call hp
    rw [hn] at he
    cases he
  keep _ _ _ _ _ _ he := by cases he

section

variable {s : Service} {m m' : Machine} {r : TransactionRecord} {moves : List Move}

/-- No record has a blank key. -/
theorem Reachable.keyed (h : Reachable s m) (hr : r ∈ m.stores.table.rows) :
    trimBlanks r.key.toList ≠ [] := by
  obtain ⟨moves, hm⟩ := h.played
  obtain ⟨before, n, p, reply, r₀, -, hn, hstored, hb, -⟩ := stored_of_play hm r hr
  have hmay : Terms.keyed.may (.store (.insert r₀.payload)) := by
    refine may_of_asks Terms.keyed_open (fun new hk _ => ?_) hn (fun _ _ _ => trivial) hstored.asks
    rintro _ _ ⟨⟩
    exact hk
  rw [← hb.same.key_eq]
  exact hmay _ _ rfl

/-- A key that has a record keeps it. -/
theorem Reachable.rowByKey? (h : Reachable s m) (hr : r ∈ m.stores.table.rows)
    (hp : m.play s moves = some m') :
    ∃ r', m'.stores.table.rowByKey? r.key = some r' ∧ r.Before r' := by
  obtain ⟨hs, he, -⟩ := Machine.play_onward hp h.sound
  obtain ⟨r', hr', hb⟩ := he.mem hr
  refine ⟨r', ?_, hb⟩
  rw [hb.same.key_eq]
  exact hs.rowByKey?_of_row? (hs.row?_of_mem hr')

end

/-- Once a key has a record, whatever comes after. If the record is terminal, a request of its owner
under the key only looks the key up and is answered with the record as it was then. A request of
anybody else only looks the key up and is told that there is nothing. A request that looked the key up
too early reads only until it comes to store a record of its own; it is turned down there, and answered
in the same way. -/
theorem replay_stable_private {s : Service} {m m' : Machine} {r : TransactionRecord}
    {moves : List Move} (h : Reachable s m) (hr : r ∈ m.stores.table.rows)
    (hp : m.play s moves = some m') (request : Request) :
    (r.status.isTerminal = true →
      (request.program s r.user r.key).run.LooksUp r.key m'.stores (.ok r.view)) ∧
    (∀ user, user ≠ r.user → (request.program s user r.key).run.LooksUp r.key m'.stores
      (.error (.notFound "Transaction not found"))) ∧
    ∀ user calls new next,
      (request.program s user r.key).run.Leads calls (.ask (.store (.insert new)) next) →
      (∀ call ∈ calls, call.writes = false) ∧
      (∀ now, m'.stores.meet (.store (.insert new)) (.served now) =
        some (.value (.ok .duplicateKey), .nothing, m'.stores)) ∧
      (user = r.user → r.status.isTerminal = true →
        (next (.ok .duplicateKey)).LooksUp r.key m'.stores (.ok r.view)) ∧
      (user ≠ r.user → (next (.ok .duplicateKey)).LooksUp r.key m'.stores
        (.error (.notFound "Transaction not found"))) := by
  have hk := h.keyed hr
  obtain ⟨r', hr', hb⟩ := h.rowByKey? hr hp
  have hu : r'.user = r.user := hb.same.user_eq.symm
  have hsubmit := request.program_eq_submit Terms.reading_queries s r.key
  refine ⟨fun ht => ?_, fun user hne => ?_, fun user calls new next hl => ?_⟩
  · cases hb.final ht
    obtain ⟨check, hprogram, -⟩ := hsubmit r.user
    rw [hprogram]
    exact Service.submit_terminal hk hr' rfl ht
  · obtain ⟨check, hprogram, -⟩ := hsubmit user
    rw [hprogram]
    exact Service.submit_foreign hk hr' (hu ▸ hne.symm)
  · obtain ⟨check, hprogram, hc⟩ := hsubmit user
    rw [hprogram] at hl
    obtain ⟨hreads, hkey, rfl, hrun⟩ := Service.submit_leads (hc.mono fun _ h => ⟨h.1, h.2.1⟩) hl
    rw [← hkey] at hr' ⊢
    have hlook := Service.createAndDrive_duplicate hrun hr'
    refine ⟨hreads, Stores.meet_duplicate hr', fun heq ht => ?_, fun hne => ?_⟩
    · cases hb.final ht
      rwa [if_pos heq.symm] at hlook
    · rwa [if_neg fun heq => hne (heq.symm.trans hu)] at hlook

/-- Another user's deposit under a key that nobody had yet when it was looked up. -/
theorem lateDeposit_leads : ∃ calls new next,
    ((Request.deposit ⟨1, forty, none⟩).program plainService 2 "a").run.Leads calls
      (.ask (.store (.insert new)) next) :=
  ⟨_, _, _, .ask (.ok none) (.ask (.ok ⟨1, 2, .usd, .zero, .active⟩) .here)⟩

def completedDeposit : List Move := contendedDeposit ++ [.answer 0 (.served 0)]

def replayedDeposit : List Move :=
  [.start (.transfer ⟨1, 2, forty, some 1⟩ 1 "a"), .answer 1 (.served 0), .start (.recover 1),
    .answer 2 (.served 0)]

theorem replay_stable_private_replayedDeposit : ∃ m m' r,
    Machine.play plainService {} completedDeposit = some m ∧ r ∈ m.stores.table.rows ∧
    r.status = .completed ∧ m.play plainService replayedDeposit = some m' ∧
    (∀ request : Request, (request.program plainService 1 "a").run.LooksUp "a" m'.stores
      (.ok r.view)) ∧
    ∃ calls new next, ((Request.deposit ⟨1, forty, none⟩).program plainService 2 "a").run.Leads calls
        (.ask (.store (.insert new)) next) ∧
      (next (.ok .duplicateKey)).LooksUp "a" m'.stores
        (.error (.notFound "Transaction not found")) := by
  obtain ⟨m, hm, h⟩ := Option.bind_eq_some_iff.mp (show
    ((Machine.play plainService {} completedDeposit).bind fun m =>
      (m.play plainService replayedDeposit).map fun _ =>
        m.stores.table.rows.map fun r => (r.user, r.key, r.status)) =
      some [(1, "a", .completed)] by decide +kernel)
  obtain ⟨m', hp, hrows⟩ := Option.map_eq_some_iff.mp h
  obtain ⟨r, hr, hv⟩ := List.mem_map.mp (hrows ▸ List.mem_singleton_self _)
  simp only [Prod.mk.injEq] at hv
  obtain ⟨huser, hkey, hstatus⟩ := hv
  have hreplay := replay_stable_private (Reachable.empty.play hm) hr hp
  rw [huser, hkey, hstatus] at hreplay
  obtain ⟨calls, new, next, hl⟩ := lateDeposit_leads
  exact ⟨m, m', r, hm, hr, hstatus, hp, fun request => (hreplay request).1 rfl, calls, new, next, hl,
    ((hreplay _).2.2 2 calls new next hl).2.2.2 (by decide)⟩

end Settlement
