import Settlement.Proofs.Callers
import Settlement.Proofs.Grounded

/-!
Requests, recoveries and sweeps that run side by side on one ledger and one store. A schedule picks,
call by call, whose turn it is and how it is answered. Every schedule is matched by one in which each
driver is no more than the stage it is at.
-/

namespace Settlement

abbrev Task := Flow Call Call.Answer Unit

inductive Job where
  | transfer (request : TransferRequest) (user : UserId) (key : String)
  | deposit (request : DepositRequest) (user : UserId) (key : String)
  | withdraw (request : WithdrawRequest) (user : UserId) (key : String)
  | recover (id : TransactionId)
  | sweep (settings : SweepSettings)

def Job.task (s : Service) : Job → Task
  | transfer request user key => (s.transfer request user key).run >>= fun _ => .done ()
  | deposit request user key => (s.deposit request user key).run >>= fun _ => .done ()
  | withdraw request user key => (s.withdraw request user key).run >>= fun _ => .done ()
  | recover id => (s.recover id).run >>= fun _ => .done ()
  | sweep settings => (s.sweep settings).run >>= fun _ => .done ()

/-- A call that was answered, and what it changed. -/
structure Event where
  task : Nat
  call : Call
  reply : Reply
  effect : Effect

structure Machine where
  stores : Stores := {}
  /-- In the order in which they were started. -/
  tasks : List Task := []
  /-- Newest first. -/
  history : List Event := []

inductive Move where
  | start (job : Job)
  /-- The task stops between two calls, for good. -/
  | stop (task : Nat)
  | answer (task : Nat) (reply : Reply)
  | upkeep (u : Upkeep)

def Flow.ready : Flow Q A α → Flow Q A α
  | note _ rest => rest.ready
  | flow => flow

namespace Machine

def answer (m : Machine) (p : Nat) (reply : Reply) : Option Machine :=
  match m.tasks[p]?.map Flow.ready with
  | some (.ask call next) =>
    (m.stores.meet call reply).map fun (outcome, effect, stores) =>
      { stores
        tasks := m.tasks.set p
          (match outcome with
            | .value a => next a
            | .panic _ => .done ())
        history := ⟨p, call, reply, effect⟩ :: m.history }
  | _ => none

def move (s : Service) (m : Machine) : Move → Option Machine
  | .start job => some { m with tasks := m.tasks ++ [job.task s] }
  | .stop p => some { m with tasks := m.tasks.set p (.done ()) }
  | .answer p reply => m.answer p reply
  | .upkeep u => some { m with stores := { m.stores with book := u.apply m.stores.book } }

def play (s : Service) (m : Machine) : List Move → Option Machine
  | [] => some m
  | v :: moves => (m.move s v).bind fun m => m.play s moves

end Machine

/-- The machines that schedules lead to from an empty ledger and an empty store. -/
inductive Reachable (s : Service) : Machine → Prop
  | empty : Reachable s {}
  | move {m m' : Machine} {v : Move} : Reachable s m → m.move s v = some m' → Reachable s m'

theorem Reachable.play {s : Service} {m m' : Machine} {moves : List Move} (hm : Reachable s m)
    (h : m.play s moves = some m') : Reachable s m' := by
  induction moves generalizing m with
  | nil =>
    cases h
    exact hm
  | cons v moves ih =>
    obtain ⟨n, hn, hp⟩ := Option.bind_eq_some_iff.mp h
    exact ih (hm.move hn) hp

theorem Machine.eq_of_play {s : Service} {moves : List Move} {m : Machine} {v : α} (f : Machine → α)
    (hm : Machine.play s {} moves = some m) (hv : (Machine.play s {} moves).map f = some v) :
    f m = v := by
  simpa [hm] using hv

/-- Schedules of drivers that are known by their stages only. -/
inductive Staged : (Nat → Stage) → Stores → List Event → Prop
  | empty : Staged (fun _ => .idle none) {} []
  | turn {stages : Nat → Stage} {σ σ' : Stores} {past : List Event} {p : Nat} {call : Call}
      {a : call.Answer} {st : Stage} {reply : Reply} {eff : Effect} (h : Staged stages σ past)
      (ht : Turn (stages p) call a st) (hm : σ.meet call reply = some (.value a, eff, σ')) :
      Staged (Function.update stages p st) σ' (⟨p, call, reply, eff⟩ :: past)
  /-- The call broke off, and its driver with it. -/
  | broke {stages : Nat → Stage} {σ : Stores} {past : List Event} {p : Nat} {call : Call}
      {reply : Reply} (h : Staged stages σ past) :
      Staged (Function.update stages p .ended) σ (⟨p, call, reply, .nothing⟩ :: past)
  | stop {stages : Nat → Stage} {σ : Stores} {past : List Event} {p : Nat}
      (h : Staged stages σ past) : Staged (Function.update stages p .ended) σ past
  /-- Something that concerns neither rows nor records. -/
  | aside {stages : Nat → Stage} {σ σ' : Stores} {past : List Event} (h : Staged stages σ past)
      (table : σ'.table = σ.table) (rows : σ'.book.applied = σ.book.applied) :
      Staged stages σ' past

theorem Stores.grounded_empty : Stores.Grounded {} :=
  ⟨TransactionTable.sound_empty, by simp, by simp, by simp⟩

theorem Stage.anchored_update {stages : Nat → Stage} {σ : Stores} {p : Nat} {st : Stage}
    (h : ∀ q, (stages q).Anchored σ) (hp : st.Anchored σ) (q : Nat) :
    (Function.update stages p st q).Anchored σ := by
  by_cases hq : q = p
  · subst hq
    rwa [Function.update_self]
  · rw [Function.update_of_ne hq]
    exact h q

theorem Staged.grounded {stages : Nat → Stage} {σ : Stores} {past : List Event}
    (h : Staged stages σ past) : σ.Grounded ∧ ∀ p, (stages p).Anchored σ := by
  induction h with
  | empty => exact ⟨Stores.grounded_empty, fun _ => trivial⟩
  | turn _ ht hm ih =>
    obtain ⟨hg, ha⟩ := ih
    have hk := (Stores.meet_change hg.sound hm).1.keeps
    obtain ⟨hg', ha'⟩ := hg.turn (ha _) ht hm
    exact ⟨hg', Stage.anchored_update (fun q => (ha q).keep hk) ha'⟩
  | broke _ ih | stop _ ih => exact ⟨ih.1, Stage.anchored_update ih.2 trivial⟩
  | aside _ table rows ih =>
    obtain ⟨hg, ha⟩ := ih
    exact ⟨hg.aside table rows, fun p => (ha p).keep (Stores.keeps_of_table table)⟩

/-- Grounded stores answer what an anchored driver relies on. -/
theorem Stores.Grounded.expects {σ σ' : Stores} {st : Stage} {call : Call} {a : call.Answer}
    {reply : Reply} {eff : Effect} (hg : σ.Grounded) (ha : st.Anchored σ)
    (hm : σ.meet call reply = some (.value a, eff, σ')) : st.Expects call a := by
  unfold Stage.Expects
  split
  · exact Stores.meet_getAccount hm _ rfl
  · have hr := Stores.meet_get hm _ rfl
    refine ⟨(TransactionTable.mem_of_row? hr).2, hg.wellFormed_of_row? hr, ?_⟩
    rintro last rfl rfl
    obtain ⟨r, hl, hs⟩ := ha
    rw [hr] at hl
    cases hl
    exact hs.payload.symm
  · trivial

theorem Flow.follows_ready {x : Flow Call Call.Answer α} {post : α → Stage → Prop} {st : Stage}
    (h : x.Follows post st) : x.ready.Follows post st := by
  induction x with
  | note e rest ih => exact ih h
  | done a => exact h
  | panic m => exact h
  | ask q next => exact h

/-- A job starts as a driver without a record, and ends as one. -/
theorem Job.follows (s : Service) (job : Job) :
    (job.task s).Follows (fun _ st => st.Idle) (.idle none) := by
  have hr : ∀ {α : Type} {p : Program ServiceError α}, Rests p (fun _ => True) →
      Flow.Follows (fun _ st => st.Idle) (p.run >>= fun _ => Flow.done ()) (.idle none) := by
    intro α p hp
    rw [Flow.follows_bind]
    refine Flow.Follows.mono (hp none) fun r st h => ?_
    cases r with
    | ok a => exact h.1
    | error e => exact h
  cases job with
  | transfer request user key => exact hr (submit_rests newTransfer_rests)
  | deposit request user key => exact hr (submit_rests newDeposit_rests)
  | withdraw request user key => exact hr (submit_rests newWithdraw_rests)
  | recover id => exact hr recover_rests
  | sweep settings => exact hr sweep_rests

structure Machine.Matches (m : Machine) (stages : Nat → Stage) : Prop where
  staged : Staged stages m.stores m.history
  follows : ∀ p (task : Task), m.tasks[p]? = some task →
    task.Follows (fun _ _ => True) (stages p)
  unstarted : ∀ p, m.tasks.length ≤ p → stages p = .idle none

namespace Machine.Matches

section

variable {m : Machine} {stages : Nat → Stage} {p : Nat} {task : Task} {st : Stage}

/-- One task goes on, the others wait. -/
theorem follows_set (h : m.Matches stages) (ht : task.Follows (fun _ _ => True) st) (q : Nat)
    (other : Task) (hq : (m.tasks.set p task)[q]? = some other) :
    other.Follows (fun _ _ => True) (Function.update stages p st q) := by
  rw [List.getElem?_set] at hq
  by_cases hp : p = q
  · subst hp
    rw [Function.update_self]
    rw [if_pos rfl] at hq
    split at hq
    · cases hq
      exact ht
    · contradiction
  · rw [if_neg hp] at hq
    rw [Function.update_of_ne (Ne.symm hp)]
    exact h.follows q other hq

theorem unstarted_set (h : m.Matches stages) (hp : p < m.tasks.length) (q : Nat)
    (hq : (m.tasks.set p task).length ≤ q) : Function.update stages p st q = .idle none := by
  rw [List.length_set] at hq
  rw [Function.update_of_ne (Nat.ne_of_gt (Nat.lt_of_lt_of_le hp hq))]
  exact h.unstarted q hq

theorem start (h : m.Matches stages) (s : Service) (job : Job) :
    Machine.Matches { m with tasks := m.tasks ++ [job.task s] } stages := by
  refine ⟨h.staged, ?_, fun q hq => h.unstarted q ?_⟩
  · intro q task hq
    rw [List.getElem?_append] at hq
    split at hq
    · exact h.follows q task hq
    next hl =>
      rw [h.unstarted q (Nat.le_of_not_lt hl)]
      obtain ⟨rfl, _⟩ : task = job.task s ∧ True := by
        rw [List.getElem?_singleton] at hq
        split at hq
        · exact ⟨(Option.some.inj hq).symm, trivial⟩
        · contradiction
      exact (job.follows s).mono fun _ _ _ => trivial
  · exact Nat.le_trans (by simp) hq

theorem stop (h : m.Matches stages) (p : Nat) :
    ∃ stages', Machine.Matches { m with tasks := m.tasks.set p (.done ()) } stages' := by
  by_cases hp : p < m.tasks.length
  · exact ⟨_, h.staged.stop, h.follows_set trivial, h.unstarted_set hp⟩
  · rw [List.set_eq_of_length_le (Nat.le_of_not_lt hp)]
    exact ⟨stages, h⟩

theorem upkeep (h : m.Matches stages) (u : Upkeep) :
    Machine.Matches { m with stores := { m.stores with book := u.apply m.stores.book } } stages :=
  ⟨h.staged.aside rfl (u.apply_applied m.stores.book), h.follows, h.unstarted⟩

theorem answer {m' : Machine} {reply : Reply} (h : m.Matches stages)
    (hm : m.answer p reply = some m') : ∃ stages', m'.Matches stages' := by
  unfold Machine.answer at hm
  split at hm
  next call next hc =>
    obtain ⟨⟨outcome, eff, σ⟩, ho, rfl⟩ := Option.map_eq_some_iff.mp hm
    obtain ⟨task, ht, hr⟩ := Option.map_eq_some_iff.mp hc
    have hp : p < m.tasks.length := (List.getElem?_eq_some_iff.mp ht).1
    have hf := Flow.follows_ready (h.follows p task ht)
    rw [hr] at hf
    obtain ⟨hg, ha⟩ := h.staged.grounded
    cases outcome with
    | value a =>
      obtain ⟨st, hturn, hnext⟩ := hf a (hg.expects (ha p) ho)
      exact ⟨_, h.staged.turn hturn ho, h.follows_set hnext, h.unstarted_set hp⟩
    | panic message =>
      obtain ⟨rfl, rfl⟩ := Stores.meet_panic ho
      exact ⟨_, h.staged.broke, h.follows_set trivial, h.unstarted_set hp⟩
  next => contradiction

end
end Machine.Matches

/-- Every machine that a schedule leads to is matched by a schedule of stages. -/
theorem Reachable.matched {s : Service} {m : Machine} (h : Reachable s m) :
    ∃ stages, m.Matches stages := by
  induction h with
  | empty => exact ⟨_, .empty, by simp, fun _ _ => rfl⟩
  | move _ hv ih =>
    obtain ⟨stages, hs⟩ := ih
    rename_i v _
    cases v with
    | start job =>
      cases hv
      exact ⟨stages, hs.start s job⟩
    | stop p =>
      cases hv
      exact hs.stop p
    | answer p reply => exact hs.answer hv
    | upkeep u =>
      cases hv
      exact ⟨stages, hs.upkeep u⟩

def forty : Decimal := .ofInt64 40

def hundred : Decimal := .ofInt64 100

def plainService : Service := ⟨"memory", "static", {}, ⟨hundred, hundred⟩⟩

def debitedTransfer : List Move :=
  [.upkeep (.openAccount 1 .usd hundred), .upkeep (.openAccount 1 .usd .zero),
    .start (.transfer ⟨1, 2, forty, some 1⟩ 1 "a"), .answer 0 (.served 0),
    .answer 0 (.served 0), .answer 0 (.served 0),
    .answer 0 (.elsewhere (.categories (.find 1)) (.ok (some ⟨1, none, "FOOD"⟩))),
    .answer 0 (.elsewhere (.limits (.find 1)) (.ok (some ⟨1, hundred, hundred⟩))),
    .answer 0 (.elsewhere .now (0 : Int)), .answer 0 (.served 0), .answer 0 (.served 0),
    .answer 0 (.served 0), .answer 0 (.served 0), .answer 0 (.served 0), .answer 0 (.served 0)]

end Settlement
