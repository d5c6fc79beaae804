import Settlement.Proofs.Terms
import Settlement.Proofs.Truth
import Settlement.Proofs.Turns

/-!
A service that has the stores to itself. Its acts, one after the other, are a schedule in which the
drivers take turns, so what holds of such schedules holds between its acts. What its programs keep to
carries a property of the stores along each of its runs.
-/

namespace Settlement

def Reply.carries : Reply → Bool
  | served _ | lost .. => true
  | refused _ | elsewhere .. => false

def Flow.visits : Flow Call Call.Answer Unit → List Reply → Stores → List (Stores × Call)
  | .done _, _, _ | .panic _, _, _ | .ask _ _, [], _ => []
  | .note _ rest, replies, σ => rest.visits replies σ
  | .ask call next, reply :: replies, σ =>
    (if reply.carries then [(σ, call)] else []) ++
      match σ.meet call reply with
      | some (.value a, _, σ) => (next a).visits replies σ
      | _ => []

def Act.visits (s : Service) (σ : Stores) : Act → List (Stores × Call)
  | .call job replies => (job.task s).visits replies σ
  | .upkeep _ => []

def Stores.visits (s : Service) (σ : Stores) : List Act → List (Stores × Call)
  | [] => []
  | act :: acts =>
    act.visits s σ ++
      match σ.act s act with
      | some σ => σ.visits s acts
      | none => []

section

variable {past : List Event} {e : Event} {s : Service} {m : Machine} {σ σ' : Stores}

/-- Where tasks with greater numbers come later, drivers take turns. -/
theorem takesTurns_of_pairwise (h : past.Pairwise fun e f => f.task ≤ e.task) :
    takesTurns past = true := by
  induction past with
  | nil => rfl
  | cons e past ih =>
    obtain ⟨hle, hp⟩ := List.pairwise_cons.mp h
    rw [takesTurns, ih hp, Bool.true_and]
    cases hw : e.worksOn with
    | none => rfl
    | some id =>
      by_cases hf : ∃ f ∈ past, f.worksOn = some id ∧ f.task = e.task
      · obtain ⟨f, hf, hfw, hft⟩ := hf
        obtain ⟨g, hg⟩ : ∃ g, past.find? (fun e => e.worksOn == some id) = some g :=
          Option.isSome_iff_exists.mp (List.find?_isSome.mpr ⟨f, hf, by simp [hfw]⟩)
        obtain ⟨_, later, before, rfl, hlater⟩ := List.find?_eq_some_iff_append.mp hg
        have hfg : f.task ≤ g.task := by
          rcases List.mem_append.mp hf with hf | hf
          · have hn := hlater f hf
            simp [hfw] at hn
          · rcases List.mem_cons.mp hf with rfl | hf
            · exact Nat.le_refl _
            · exact (List.pairwise_cons.mp (List.pairwise_append.mp hp).2.1).1 f hf
        have hge : g.task = e.task := by
          have := hle g (by simp)
          omega
        simp [lastOn, hg, hge]
      · have hall : past.all (fun f => !(f.worksOn == some id && f.task == e.task)) = true := by
          refine List.all_eq_true.mpr fun f hm => ?_
          have hn : ¬(f.worksOn = some id ∧ f.task = e.task) := fun h => hf ⟨f, hm, h⟩
          simpa using not_and_or.mp hn
        exact Bool.or_eq_true_iff.mpr (.inr hall)

/-- What a task does alone, it does as one of many. -/
theorem Reachable.alone {x y : Task} {p : Nat} {replies : List Reply} (h : Reachable s m)
    (hp : m.tasks[p]? = some y) (hy : y.ready = x.ready)
    (hx : x.alone replies m.stores = some σ') :
    ∃ m' news, Reachable s m' ∧ m'.stores = σ' ∧ m'.tasks.length = m.tasks.length ∧
      m'.history = news ++ m.history ∧ ∀ e ∈ news, e.task = p ∧ e.reply ∈ replies := by
  induction x generalizing m y replies with
  | done | panic =>
    cases hx
    exact ⟨m, [], h, rfl, rfl, rfl, by simp⟩
  | note e rest ih => exact ih h hp hy hx
  | ask call next ih =>
    cases replies with
    | nil => cases hx
    | cons reply replies =>
      rw [Flow.alone] at hx
      obtain ⟨⟨outcome, eff, τ⟩, hm, hrun⟩ := Option.bind_eq_some_iff.mp hx
      have hready : m.tasks[p]?.map Flow.ready = some (.ask call next) := by
        rw [hp, Option.map_some, hy]
        rfl
      have hlt : p < m.tasks.length := (List.getElem?_eq_some_iff.mp hp).1
      cases outcome with
      | value a =>
        have hmove : m.move s (.answer p reply) = some
            ⟨τ, m.tasks.set p (next a), ⟨p, call, reply, eff⟩ :: m.history⟩ := by
          simp only [Machine.move, Machine.answer, hready, hm, Option.map_some]
        obtain ⟨m', news, hr, hσ, hl, hh, hn⟩ :=
          ih a (h.move hmove) (List.getElem?_set_self hlt) rfl hrun
        refine ⟨m', news ++ [⟨p, call, reply, eff⟩], hr, hσ, by simpa using hl, by simpa using hh,
          fun e he => ?_⟩
        rcases List.mem_append.mp he with he | he
        · exact (hn e he).imp_right (List.mem_cons_of_mem _)
        · cases List.mem_singleton.mp he
          exact ⟨rfl, List.mem_cons_self⟩
      | panic message =>
        cases hrun
        have hmove : m.move s (.answer p reply) = some
            ⟨σ', m.tasks.set p (.done ()), ⟨p, call, reply, eff⟩ :: m.history⟩ := by
          simp only [Machine.move, Machine.answer, hready, hm, Option.map_some]
        refine ⟨_, [⟨p, call, reply, eff⟩], h.move hmove, rfl, by simp, rfl, fun e he => ?_⟩
        cases List.mem_singleton.mp he
        exact ⟨rfl, List.mem_cons_self⟩

/-- The tasks of the history in their order, each with steady replies only. -/
structure Machine.Sequenced (m : Machine) : Prop where
  order : m.history.Pairwise fun e f => f.task ≤ e.task
  started : ∀ e ∈ m.history, e.task < m.tasks.length
  steady : ∀ e ∈ m.history, e.reply.steady = true

/-- One act after the other is a schedule of tasks one after the other. -/
theorem Reachable.live {acts : List Act} (h : Reachable s m) (hq : m.Sequenced)
    (hs : acts.all Act.steady = true) (hl : m.stores.live s acts = some σ') :
    ∃ m', Reachable s m' ∧ m'.stores = σ' ∧ m'.Sequenced := by
  induction acts generalizing m with
  | nil =>
    cases hl
    exact ⟨m, h, rfl, hq⟩
  | cons act acts ih =>
    simp only [List.all_cons, Bool.and_eq_true] at hs
    obtain ⟨τ, hact, hl⟩ := Option.bind_eq_some_iff.mp hl
    cases act with
    | upkeep u =>
      cases hact
      exact ih (h.move (v := .upkeep u) rfl) ⟨hq.order, hq.started, hq.steady⟩ hs.2 hl
    | call job replies =>
      have hstart : m.move s (.start job) = some { m with tasks := m.tasks ++ [job.task s] } := rfl
      obtain ⟨m', news, hr, rfl, hlen, hh, hn⟩ := (h.move hstart).alone
        (List.getElem?_concat_length ..) rfl hact
      refine ih hr ⟨?_, fun e he => ?_, fun e he => ?_⟩ hs.2 hl
      · rw [hh]
        refine List.pairwise_append.mpr ⟨?_, hq.order, fun e he f hf => ?_⟩
        · refine List.pairwise_of_forall_mem_list fun e he f hf => ?_
          rw [(hn e he).1, (hn f hf).1]
        · rw [(hn e he).1]
          exact (hq.started f hf).le
      · rw [hlen, List.length_append, List.length_singleton]
        rw [hh] at he
        rcases List.mem_append.mp he with he | he
        · rw [(hn e he).1]
          exact Nat.lt_succ_self _
        · exact Nat.lt_succ_of_lt (hq.started e he)
      · rw [hh] at he
        rcases List.mem_append.mp he with he | he
        · exact List.all_eq_true.mp hs.1 _ (hn e he).2
        · exact hq.steady e he

/-- Between its acts, the stores of a service that has them to itself are those of a schedule whose
drivers take turns. -/
theorem Stores.live_reachable {acts : List Act} (hl : Stores.live s {} acts = some σ)
    (hs : acts.all Act.steady = true) :
    ∃ m, Reachable s m ∧ m.stores = σ ∧ takesTurns m.history = true ∧
      m.history.all (·.reply.arrives) = true := by
  obtain ⟨m, hr, hm, hq⟩ := Reachable.empty.live (m := {}) ⟨.nil, by simp, by simp⟩ hs hl
  refine ⟨m, hr, hm, takesTurns_of_pairwise hq.order, List.all_eq_true.mpr fun e he => ?_⟩
  have := hq.steady e he
  simp only [Reply.steady, Bool.and_eq_true] at this
  exact this.1

/-- What the calls of the terms keep of the stores, a run alone keeps. -/
theorem Flow.Under.alone {t : Terms} {post : Unit → Prop} {I : Stores → Prop}
    (fits : Stores → Call → Prop)
    (hI : ∀ {σ σ' : Stores} {call : Call} {reply : Reply} {outcome : Flow.Outcome call.Answer}
      {eff : Effect}, I σ → t.may call → (reply.carries = true → fits σ call) →
      σ.meet call reply = some (outcome, eff, σ') →
      I σ' ∧ ∀ a, outcome = .value a → t.trust call a)
    {x : Task} {replies : List Reply} (hx : x.Under t post)
    (hv : ∀ v ∈ x.visits replies σ, fits v.1 v.2) (hσ : I σ)
    (hr : x.alone replies σ = some σ') : I σ' := by
  induction x generalizing replies σ with
  | done | panic =>
    cases hr
    exact hσ
  | note e rest ih => exact ih hx hv hσ hr
  | ask call next ih =>
    cases replies with
    | nil => cases hr
    | cons reply replies =>
      rw [Flow.alone] at hr
      obtain ⟨⟨outcome, eff, τ⟩, hm, hrun⟩ := Option.bind_eq_some_iff.mp hr
      rw [Flow.visits, hm] at hv
      have hfits : reply.carries = true → fits σ call := fun hc => hv (σ, call) (by simp [hc])
      obtain ⟨hτ, htrust⟩ := hI hσ hx.1 hfits hm
      cases outcome with
      | value a =>
        exact ih a (hx.2 a (htrust a rfl)) (fun v hm => hv v (List.mem_append_right _ hm)) hτ hrun
      | panic message =>
        cases hrun
        exact hτ

end

/-- A job stores what it was checked to store, and nothing else. -/
theorem Job.under {t : Terms} (ht : t.Open)
    (hi : ∀ new : NewTransaction, trimBlanks new.key.toList ≠ [] → t.Checks new →
      t.may (.store (.insert new)))
    (s : Service) (job : Job) : (job.task s).Under t fun _ => True := by
  have hr : ∀ {α : Type} {p : Program ServiceError α}, Heeds t p (fun _ => True) →
      Flow.Under t (fun _ => True) (p.run >>= fun _ => Flow.done ()) := by
    intro α p hp
    rw [Flow.under_bind]
    exact Flow.Under.mono hp fun _ _ => trivial
  have submitted : ∀ {user key} {check : Program ServiceError NewTransaction},
      Heeds t check (fun new => new.key = key ∧ new.user = user ∧ t.Checks new) →
      Flow.Under t (fun _ => True) ((s.submit user key check).run >>= fun _ => Flow.done ()) := by
    intro user key check hc
    refine hr (Service.submit_heeds ht hc fun new hk hn => ?_)
    exact hi new (hn.1 ▸ hk) hn.2.2
  cases job with
  | transfer request user key =>
    exact submitted (Service.newTransfer_heeds ht.queries)
  | deposit request user key =>
    exact submitted (Service.newDeposit_heeds ht.queries)
  | withdraw request user key =>
    exact submitted (Service.newWithdraw_heeds ht.queries)
  | recover id => exact hr (Service.recover_heeds ht)
  | sweep settings => exact hr (Service.sweep_heeds ht)

end Settlement
