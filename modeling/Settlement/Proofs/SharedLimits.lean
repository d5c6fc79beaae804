import Settlement.Proofs.LimitErrands

/-!
Callers that read, check and set limits side by side on one store. A schedule picks, call by call, whose
turn it is. Main statement: a user has the limits that were set last, or else none or the default ones,
and nobody is ever told others.
-/

namespace Settlement

structure LimitTask where
  errand : LimitErrand
  rest : LimitWork

structure Desk where
  limits : LimitTable := {}
  /-- In the order in which they were started. -/
  tasks : List LimitTask := []
  /-- Newest first. -/
  history : List LimitEvent := []

inductive DeskMove where
  | start (errand : LimitErrand)
  /-- The store answers the task. -/
  | answer (task : Nat)
  /-- The task is answered by somebody else. -/
  | hear (task : Nat) (reply : (call : Call) → call.Answer)

namespace Desk

def answer (d : Desk) (p : Nat) (task : LimitTask) : Option Desk :=
  match task.rest.ready with
  | .ask (.limits call) next =>
    match d.limits.answer call with
    | (.value a, limits) =>
      some ⟨limits, d.tasks.set p ⟨task.errand, next a⟩, ⟨p, call, a⟩ :: d.history⟩
    | (.panic _, _) => none
  | _ => none

def hear (d : Desk) (p : Nat) (task : LimitTask) (reply : (call : Call) → call.Answer) : Option Desk :=
  match task.rest.ready with
  | .ask (.limits _) _ => none
  | .ask call next => some { d with tasks := d.tasks.set p ⟨task.errand, next (reply call)⟩ }
  | _ => none

def move (s : Service) (d : Desk) : DeskMove → Option Desk
  | .start errand => some { d with tasks := d.tasks ++ [⟨errand, errand.work s⟩] }
  | .answer p => d.tasks[p]?.bind (d.answer p)
  | .hear p reply => d.tasks[p]?.bind fun task => d.hear p task reply

def play (s : Service) (d : Desk) : List DeskMove → Option Desk
  | [] => some d
  | v :: moves => (d.move s v).bind fun d => d.play s moves

/-- The desks that schedules lead to if there are no limits at first. A caller that gives up is one whose
turn does not come again. -/
inductive Reached (s : Service) : Desk → Prop
  | empty : Reached s {}
  | move {d d' : Desk} {v : DeskMove} : Reached s d → d.move s v = some d' → Reached s d'

theorem Reached.play {s : Service} {d d' : Desk} {moves : List DeskMove} (hd : Reached s d)
    (h : d.play s moves = some d') : Reached s d' := by
  induction moves generalizing d with
  | nil =>
    cases h
    exact hd
  | cons v moves ih =>
    obtain ⟨n, hn, hp⟩ := Option.bind_eq_some_iff.mp h
    exact ih (hd.move hn) hp

inductive Moved (s : Service) (d : Desk) : Desk → Prop
  | start {errand : LimitErrand} : Moved s d { d with tasks := d.tasks ++ [⟨errand, errand.work s⟩] }
  | answer {p : Nat} {task : LimitTask} {call : LimitCall}
      {next : call.Answer → LimitWork} {a : call.Answer} {limits : LimitTable}
      (task? : d.tasks[p]? = some task) (ready : task.rest.ready = .ask (.limits call) next)
      (answers : d.limits.Answers limits call a) :
      Moved s d ⟨limits, d.tasks.set p ⟨task.errand, next a⟩, ⟨p, call, a⟩ :: d.history⟩
  | hear {p : Nat} {task : LimitTask} {call : Call} {next : call.Answer → LimitWork} {a : call.Answer}
      (task? : d.tasks[p]? = some task) (ready : task.rest.ready = .ask call next)
      (elsewhere : ∀ c, call ≠ .limits c) :
      Moved s d { d with tasks := d.tasks.set p ⟨task.errand, next a⟩ }

theorem moved {s : Service} {d d' : Desk} {v : DeskMove} (h : d.move s v = some d') : Moved s d d' := by
  cases v with
  | start errand =>
    cases h
    exact .start
  | answer p =>
    obtain ⟨task, ht, h⟩ := Option.bind_eq_some_iff.mp h
    unfold answer at h
    split at h
    next call next hr =>
      obtain ⟨a, limits, ha, hanswers⟩ := d.limits.answers call
      rw [ha] at h
      cases h
      exact .answer ht hr hanswers
    next => contradiction
  | hear p reply =>
    obtain ⟨task, ht, h⟩ := Option.bind_eq_some_iff.mp h
    unfold hear at h
    split at h
    next => contradiction
    next call next hl hr =>
      cases h
      refine .hear ht hr fun c hc => ?_
      subst hc
      exact hl c next rfl HEq.rfl
    next => contradiction

def errand? (d : Desk) (p : Nat) : Option LimitErrand := d.tasks[p]?.map (·.errand)

/-- Every caller has done as its errand may, and goes on so. -/
structure Steady (s : Service) (d : Desk) : Prop where
  after : d.limits.After s d.history
  tells : ∀ (p : Nat) (task : LimitTask), d.tasks[p]? = some task →
    task.rest.Tells (task.errand.asking s p) task.errand.Ends (LimitEvent.own p d.history)
  callers : ∀ e ∈ d.history, ∃ errand, d.errand? e.task = some errand ∧
    ∀ limit, e.written? = some limit → errand = .update limit.user limit.daily limit.single

section

variable {s : Service} {d d' : Desk} {p q : Nat} {task other : LimitTask} {rest : LimitWork}

theorem errand?_set (ht : d.tasks[p]? = some task) (limits : LimitTable) (history : List LimitEvent) :
    Desk.errand? ⟨limits, d.tasks.set p ⟨task.errand, rest⟩, history⟩ = d.errand? := by
  funext q
  obtain ⟨hp, rfl⟩ := List.getElem?_eq_some_iff.mp ht
  by_cases hq : p = q
  · subst hq
    simp [errand?, hp]
  · simp [errand?, List.getElem?_set_ne hq]

theorem errand?_append {errand : LimitErrand} (h : d.errand? p = some errand) :
    Desk.errand? { d with tasks := d.tasks ++ [task] } p = some errand := by
  obtain ⟨old, ho, rfl⟩ := Option.map_eq_some_iff.mp h
  have hp := (List.getElem?_eq_some_iff.mp ho).1
  rw [errand?, List.getElem?_append_left hp, ho]
  rfl

theorem Steady.own_eq_nil (hd : d.Steady s) (hq : d.tasks.length ≤ q) :
    LimitEvent.own q d.history = [] := by
  refine List.eq_nil_iff_forall_not_mem.mpr fun e he => ?_
  obtain ⟨hmem, rfl⟩ := LimitEvent.mem_own.mp he
  obtain ⟨errand, herrand, -⟩ := hd.callers e hmem
  rw [errand?, List.getElem?_eq_none hq] at herrand
  contradiction

/-- One task goes on, the others wait. -/
theorem Steady.tells_set {history : List LimitEvent} (hd : d.Steady s)
    (hown : ∀ q ≠ p, LimitEvent.own q history = LimitEvent.own q d.history)
    (hrest : rest.Tells (task.errand.asking s p) task.errand.Ends (LimitEvent.own p history))
    (hq : (d.tasks.set p ⟨task.errand, rest⟩)[q]? = some other) :
    other.rest.Tells (other.errand.asking s q) other.errand.Ends (LimitEvent.own q history) := by
  rw [List.getElem?_set] at hq
  split at hq
  next hp =>
    subst hp
    split at hq
    · cases hq
      exact hrest
    · contradiction
  next hp =>
    rw [hown q (Ne.symm hp)]
    exact hd.tells q other hq

theorem Steady.start (hd : d.Steady s) (errand : LimitErrand) :
    Steady s { d with tasks := d.tasks ++ [⟨errand, errand.work s⟩] } := by
  refine ⟨hd.after, fun q task hq => ?_, fun e he => ?_⟩
  · rw [List.getElem?_append] at hq
    split at hq
    · exact hd.tells q task hq
    next hl =>
      obtain ⟨_, rfl⟩ := List.getElem?_eq_some_iff.mp hq
      rw [hd.own_eq_nil (Nat.le_of_not_lt hl), List.getElem_singleton]
      exact errand.work_tells s q
  · obtain ⟨errand, he, hw⟩ := hd.callers e he
    exact ⟨errand, errand?_append he, hw⟩

/-- What a task asks next is what its errand may. -/
theorem Steady.asks {call : Call} {next : call.Answer → LimitWork} (hd : d.Steady s)
    (ht : d.tasks[p]? = some task) (hr : task.rest.ready = .ask call next) :
    (task.errand.asking s p).ask call
      (fun a => (next a).Tells (task.errand.asking s p) task.errand.Ends)
      (LimitEvent.own p d.history) := by
  have htells := (hd.tells p task ht).ready
  rwa [hr] at htells

theorem Steady.answer {call : LimitCall} {next : call.Answer → LimitWork} {a : call.Answer}
    {limits : LimitTable} (hd : d.Steady s) (ht : d.tasks[p]? = some task)
    (hr : task.rest.ready = .ask (.limits call) next) (answers : d.limits.Answers limits call a) :
    Steady s ⟨limits, d.tasks.set p ⟨task.errand, next a⟩, ⟨p, call, a⟩ :: d.history⟩ := by
  obtain ⟨may, hnext⟩ := hd.asks ht hr
  have hown : LimitEvent.own p (⟨p, call, a⟩ :: d.history) =
      ⟨p, call, a⟩ :: LimitEvent.own p d.history := LimitEvent.own_cons rfl
  have hrest := hnext a (hd.after.fits may answers)
  rw [← hown] at hrest
  refine ⟨hd.after.call may answers, fun q other hq => hd.tells_set ?_ hrest hq, ?_⟩
  · exact fun q hq => LimitEvent.own_cons_of_ne (Ne.symm hq)
  · rw [errand?_set ht]
    refine List.forall_mem_cons.mpr ⟨⟨task.errand, ?_, fun limit hw => ?_⟩, hd.callers⟩
    · rw [errand?, ht]
      rfl
    · cases call with
      | find | insertIfAbsent => cases hw
      | update =>
        cases hw
        exact may.1

theorem Steady.hear {call : Call} {next : call.Answer → LimitWork} (hd : d.Steady s)
    (ht : d.tasks[p]? = some task) (hr : task.rest.ready = .ask call next)
    (elsewhere : ∀ c, call ≠ .limits c) (a : call.Answer) :
    Steady s { d with tasks := d.tasks.set p ⟨task.errand, next a⟩ } := by
  have hrest := (LimitErrand.asking_elsewhere elsewhere).mp (hd.asks ht hr) a
  refine ⟨hd.after, fun q other hq => hd.tells_set (fun _ _ => rfl) hrest hq, ?_⟩
  rw [errand?_set ht]
  exact hd.callers

theorem Steady.moved (hd : d.Steady s) (h : Moved s d d') : d'.Steady s := by
  cases h with
  | start => exact hd.start _
  | answer ht hr answers => exact hd.answer ht hr answers
  | hear ht hr elsewhere => exact hd.hear ht hr elsewhere _

theorem Reached.steady (h : Reached s d) : d.Steady s := by
  induction h with
  | empty => exact ⟨.empty, by simp, by simp⟩
  | move _ hv ih => exact ih.moved (Desk.moved hv)

def Ended (d : Desk) (p : Nat) (errand : LimitErrand)
    (outcome : Flow.Outcome (Except ServiceError (Option Limit))) : Prop :=
  ∃ rest, d.tasks[p]? = some ⟨errand, rest⟩ ∧ rest.ended? = some outcome

theorem Steady.ended {errand : LimitErrand} {outcome : Flow.Outcome (Except ServiceError (Option Limit))}
    (hd : d.Steady s) (h : d.Ended p errand outcome) :
    errand.Ends (LimitEvent.own p d.history) outcome := by
  obtain ⟨rest, ht, he⟩ := h
  exact (hd.tells p _ ht).ended he

structure Orderly (s : Service) (d : Desk) : Prop where
  /-- A user has the limits that were set last, or else none or the default ones. -/
  rows : ∀ user, d.limits.row? user = LimitEvent.latest d.history user ∨
    LimitEvent.latest d.history user = none ∧ d.limits.row? user = some (s.defaultLimit user)
  /-- Nobody is told other limits than the default ones and those that were set before. -/
  told : ∀ e older limit, e :: older <:+ d.history → e.told? = some limit →
    limit = s.defaultLimit limit.user ∨ ∃ w ∈ older, w.written? = some limit
  got : ∀ p user outcome, d.Ended p (.get user) outcome → ∃ limit,
    outcome = .value (.ok (some limit)) ∧ limit.user = user ∧
      (limit = s.defaultLimit user ∨ ∃ w ∈ d.history, w.written? = some limit)
  /-- Limits are set by an update that asks for them, and only if they can be set. -/
  written : ∀ w ∈ d.history, ∀ limit, w.written? = some limit →
    limit.Proper ∧ d.errand? w.task = some (.update limit.user limit.daily limit.single)
  accepted : ∀ p user daily single outcome, d.Ended p (.update user daily single) outcome →
    Limit.Proper ⟨user, daily, single⟩ → outcome = .value (.ok (some ⟨user, daily, single⟩)) ∧
      ∃ w ∈ d.history, w.task = p ∧ w.written? = some ⟨user, daily, single⟩
  /-- An update of limits that cannot be set makes no call at all. -/
  refused : ∀ p user daily single outcome, d.Ended p (.update user daily single) outcome →
    ¬Limit.Proper ⟨user, daily, single⟩ →
      (∃ text, outcome = .value (.error (.badRequest text))) ∧ ∀ e ∈ d.history, e.task ≠ p

end
end Desk

/-- However callers that read, check and set limits take turns: the limits of a user are the ones set
last, and as long as none were set, none or the default ones. -/
theorem set_limits_stay {s : Service} {d : Desk} (h : d.Reached s) : d.Orderly s where
  rows := h.steady.after.row
  told := by
    intro e older limit ho ht
    obtain ⟨t, ha⟩ := h.steady.after.suffix ho
    exact ha.told ht
  got := by
    intro p user outcome he
    obtain ⟨limit, rfl, rfl, e, hown, ht⟩ := h.steady.ended he
    obtain ⟨newer, older, hsplit⟩ := List.append_of_mem (LimitEvent.mem_own.mp hown).1
    have ho : e :: older <:+ d.history := ⟨newer, hsplit.symm⟩
    obtain ⟨t, ha⟩ := h.steady.after.suffix ho
    refine ⟨limit, rfl, rfl, (ha.told ht).imp id ?_⟩
    rintro ⟨w, hw, hlimit⟩
    exact ⟨w, ho.subset (List.mem_cons_of_mem _ hw), hlimit⟩
  written := by
    intro w hw limit hlimit
    obtain ⟨errand, herrand, hupdate⟩ := h.steady.callers w hw
    rw [herrand, hupdate limit hlimit]
    exact ⟨h.steady.after.proper hw hlimit, rfl⟩
  accepted := by
    intro p user daily single outcome he hp
    rcases h.steady.ended he with ⟨-, ho, w, hw, hlimit⟩ | ⟨hp', -⟩
    · obtain ⟨hmem, htask⟩ := LimitEvent.mem_own.mp hw
      exact ⟨ho, w, hmem, htask, hlimit⟩
    · exact absurd hp hp'
  refused := by
    intro p user daily single outcome he hp
    rcases h.steady.ended he with ⟨hp', -⟩ | ⟨-, hnil, ho⟩
    · exact absurd hp' hp
    · refine ⟨ho, fun e hmem htask => ?_⟩
      have hown := LimitEvent.mem_own.mpr ⟨hmem, htask⟩
      rw [hnil] at hown
      contradiction

/-- A user without limits asks for them, and is given the default ones only after others were set. -/
def overtakenDefault : List DeskMove :=
  [.start (.get 1), .start (.update 1 hundred forty), .answer 0, .answer 1, .answer 1, .answer 1,
    .answer 0]

theorem set_limits_stay_overtakenDefault :
    ∃ d : Desk, d.Reached plainService ∧ d.Orderly plainService ∧
      d.limits.row? 1 = some ⟨1, hundred, forty⟩ ∧
      d.Ended 0 (.get 1) (.value (.ok (some ⟨1, hundred, forty⟩))) ∧
      ∃ w ∈ d.history, w.written? = some ⟨1, hundred, forty⟩ := by
  obtain ⟨d, hd, hends⟩ := Option.map_eq_some_iff.mp (show
    (Desk.play plainService {} overtakenDefault).map (fun d => (d.limits.row? 1, d.tasks[0]?)) =
      some (some ⟨1, hundred, forty⟩, some ⟨.get 1, .done (.ok (some ⟨1, hundred, forty⟩))⟩) by rfl)
  obtain ⟨hrow, htask⟩ := Prod.ext_iff.mp hends
  have hreached := Desk.Reached.empty.play hd
  have horderly := set_limits_stay hreached
  have hended : d.Ended 0 (.get 1) (.value (.ok (some ⟨1, hundred, forty⟩))) := ⟨_, htask, rfl⟩
  obtain ⟨limit, hlimit, -, hset⟩ := horderly.got 0 1 _ hended
  cases hlimit
  exact ⟨d, hreached, horderly, hrow, hended, hset.resolve_left (by decide)⟩

end Settlement
