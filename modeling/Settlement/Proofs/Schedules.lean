import Mathlib.Data.List.Induction
import Settlement.Proofs.ExactlyOnce
import Settlement.Proofs.Lifecycle
import Settlement.Proofs.Sequential

/-!
Schedules, move by move. Records and history only grow, every record goes back to the call that stored
it, and a task keeps to all terms that trust no more than what the task has heard on the way.
-/

namespace Settlement

theorem Flow.Under.ready {t : Terms} {x : Flow Call Call.Answer α} {post : α → Prop}
    (h : x.Under t post) : x.ready.Under t post := by
  induction x with
  | note e rest ih => exact ih h
  | done | panic | ask => exact h

namespace Stores

variable {σ σ' : Stores} {eff : Effect}

/-- Rows go on where they are, whatever is done to the stores. -/
theorem Change.extends (h : σ.Change eff σ') (hs : σ.table.Sound) :
    σ.table.Extends TransactionRecord.Before σ'.table := by
  have hrefl := TransactionTable.Extends.refl TransactionRecord.Before.refl σ.table
  cases h with
  | nothing => exact hrefl
  | applied _ _ table => exact table ▸ hrefl
  | wrote table => exact table.goes_on hs
  | inserted table =>
    cases table with
    | inserted _ _ _ rows =>
      exact TransactionTable.extends_append TransactionRecord.Before.refl rows

/-- A record is an earlier one further on, or it was inserted just now. -/
theorem Change.origin_before (h : σ.Change eff σ') (hs : σ.table.Sound) :
    ∀ r' ∈ σ'.table.rows, (∃ r ∈ σ.table.rows, r.Before r') ∨ eff = .inserted r' := by
  intro r' hr'
  rcases h.origin r' hr' with ⟨r, hr, hsame⟩ | he
  · obtain ⟨q, hq, hb⟩ := (h.extends hs).mem hr
    have hi : q.id = r'.id := hb.same.id.symm.trans hsame.id
    rw [List.inj_on_of_nodup_map (h.sound hs).ids hq hr' hi] at hb
    exact .inl ⟨r, hr, hb⟩
  · exact .inr he

end Stores

theorem Reachable.sound {s : Service} {m : Machine} (h : Reachable s m) : m.stores.table.Sound := by
  obtain ⟨stages, hm⟩ := h.matched
  exact hm.staged.grounded.1.sound

namespace Machine

def Asks (m : Machine) (p : Nat) (call : Call) : Prop :=
  ∃ next, m.tasks[p]?.map Flow.ready = some (.ask call next)

inductive Answered (m : Machine) (p : Nat) (reply : Reply) : Machine → Prop
  | value {call : Call} {next : call.Answer → Task} {a : call.Answer} {eff : Effect} {σ : Stores}
      (asks : m.tasks[p]?.map Flow.ready = some (.ask call next))
      (met : m.stores.meet call reply = some (.value a, eff, σ)) :
      Answered m p reply ⟨σ, m.tasks.set p (next a), ⟨p, call, reply, eff⟩ :: m.history⟩
  | broken {call : Call} {message : String} {eff : Effect} {σ : Stores} (asks : m.Asks p call)
      (met : m.stores.meet call reply = some (.panic message, eff, σ)) :
      Answered m p reply ⟨σ, m.tasks.set p (.done ()), ⟨p, call, reply, eff⟩ :: m.history⟩

section

variable {s : Service} {m m' : Machine} {v : Move} {p : Nat} {reply : Reply}

theorem answered (h : m.answer p reply = some m') : m.Answered p reply m' := by
  unfold Machine.answer at h
  split at h
  next call next hc =>
    obtain ⟨⟨outcome, eff, σ⟩, ho, rfl⟩ := Option.map_eq_some_iff.mp h
    cases outcome with
    | value a => exact .value hc ho
    | panic message => exact .broken ⟨next, hc⟩ ho
  next => contradiction

theorem Answered.change (h : m.Answered p reply m') (hs : m.stores.table.Sound) :
    ∃ call eff, m.Asks p call ∧ m.stores.Change eff m'.stores ∧
      m'.history = ⟨p, call, reply, eff⟩ :: m.history := by
  cases h with
  | value asks met => exact ⟨_, _, ⟨_, asks⟩, (Stores.meet_change hs met).1, rfl⟩
  | broken asks met =>
    obtain ⟨rfl, rfl⟩ := Stores.meet_panic met
    exact ⟨_, _, asks, .nothing, rfl⟩

/-- Only an answered call changes the table. -/
theorem move_table (h : m.move s v = some m') :
    m'.stores.table = m.stores.table ∧ m'.history = m.history ∨
      ∃ p reply, v = .answer p reply ∧ m.Answered p reply m' := by
  cases v with
  | start | stop | upkeep =>
    cases h
    exact .inl ⟨rfl, rfl⟩
  | answer p reply => exact .inr ⟨p, reply, rfl, answered h⟩

theorem play_append (s : Service) (m : Machine) (xs ys : List Move) :
    m.play s (xs ++ ys) = (m.play s xs).bind fun n => n.play s ys := by
  induction xs generalizing m with
  | nil => rfl
  | cons x xs ih =>
    rw [List.cons_append, play, play]
    cases m.move s x with
    | none => rfl
    | some n => exact ih n

theorem play_concat {xs : List Move} (h : m.play s (xs ++ [v]) = some m') :
    ∃ n, m.play s xs = some n ∧ n.move s v = some m' := by
  rw [play_append] at h
  obtain ⟨n, hn, hv⟩ := Option.bind_eq_some_iff.mp h
  refine ⟨n, hn, ?_⟩
  simpa [play] using hv

/-- One move takes rows and history further. -/
theorem move_onward (h : m.move s v = some m') (hs : m.stores.table.Sound) :
    m'.stores.table.Sound ∧
      m.stores.table.Extends TransactionRecord.Before m'.stores.table ∧ m.history <:+ m'.history := by
  rcases move_table h with ⟨ht, hh⟩ | ⟨p, reply, -, ha⟩
  · rw [ht, hh]
    exact ⟨hs, .refl TransactionRecord.Before.refl _, List.suffix_rfl⟩
  · obtain ⟨call, eff, -, hc, hh⟩ := ha.change hs
    exact ⟨hc.sound hs, hc.extends hs, hh ▸ List.suffix_cons _ _⟩

theorem play_onward {moves : List Move} (h : m.play s moves = some m')
    (hs : m.stores.table.Sound) :
    m'.stores.table.Sound ∧
      m.stores.table.Extends TransactionRecord.Before m'.stores.table ∧ m.history <:+ m'.history := by
  induction moves generalizing m with
  | nil =>
    cases h
    exact ⟨hs, .refl TransactionRecord.Before.refl _, List.suffix_rfl⟩
  | cons v moves ih =>
    obtain ⟨n, hn, hp⟩ := Option.bind_eq_some_iff.mp h
    obtain ⟨hns, hne, hnh⟩ := move_onward hn hs
    obtain ⟨hs', he, hh⟩ := ih hp hns
    exact ⟨hs', hne.onward he, hnh.trans hh⟩

end
end Machine

theorem Reachable.played {s : Service} {m : Machine} (h : Reachable s m) :
    ∃ moves, Machine.play s {} moves = some m := by
  induction h with
  | empty => exact ⟨[], rfl⟩
  | @move _ _ v _ hv ih =>
    obtain ⟨moves, hn⟩ := ih
    refine ⟨moves ++ [v], ?_⟩
    rw [Machine.play_append, hn, Option.bind_some, Machine.play, hv]
    rfl

theorem getElem?_set_cases {l : List α} {x y : α} {p q : Nat} (h : (l.set q x)[p]? = some y) :
    (p = q ∧ y = x) ∨ l[p]? = some y := by
  rw [List.getElem?_set] at h
  split at h
  next hq =>
    split at h
    · exact .inl ⟨hq.symm, (Option.some.inj h).symm⟩
    · contradiction
  next => exact .inr h

/-- On the way of the moves to the machine, the task asked the call and was answered so. -/
def Heard (s : Service) (moves : List Move) (m : Machine) (p : Nat) (call : Call)
    (a : call.Answer) : Prop :=
  ∃ before n reply eff σ, before <+: moves ∧ Machine.play s {} before = some n ∧
    n.stores.meet call reply = some (.value a, eff, σ) ∧
    (⟨p, call, reply, eff⟩ :: n.history) <:+ m.history

section

variable {s : Service} {m m' : Machine} {moves : List Move} {p : Nat}

theorem Heard.later {call : Call} {a : call.Answer} (h : Heard s moves m p call a) {v : Move}
    (hh : m.history <:+ m'.history) : Heard s (moves ++ [v]) m' p call a := by
  obtain ⟨before, n, reply, eff, σ, hb, hn, hm, hs⟩ := h
  exact ⟨before, n, reply, eff, σ, hb.trans (List.prefix_append _ _), hn, hm, hs.trans hh⟩

/-- A task keeps to terms that are open to all jobs and trust no more than it has heard. -/
theorem under_of_heard {t : Terms} (ht : t.Open)
    (hi : ∀ new : NewTransaction, trimBlanks new.key.toList ≠ [] → t.Checks new →
      t.may (.store (.insert new)))
    (hm : Machine.play s {} moves = some m)
    (hh : ∀ call a, Heard s moves m p call a → t.trust call a) :
    ∀ task, m.tasks[p]? = some task → task.Under t fun _ => True := by
  induction moves using List.reverseRecOn generalizing m with
  | nil =>
    cases hm
    simp
  | append_singleton moves v ih =>
    obtain ⟨n, hn, hv⟩ := Machine.play_concat hm
    have hsound := (Reachable.empty.play hn).sound
    have hgrow := (Machine.move_onward hv hsound).2.2
    have hold := ih hn fun call a ha => hh call a (ha.later hgrow)
    intro task htask
    cases v with
    | start job =>
      cases hv
      rw [List.getElem?_append] at htask
      split at htask
      · exact hold task htask
      · obtain ⟨_, rfl⟩ := List.getElem?_eq_some_iff.mp htask
        simpa using job.under ht hi s
    | stop q =>
      cases hv
      rcases getElem?_set_cases htask with ⟨_, rfl⟩ | htask
      · trivial
      · exact hold task htask
    | upkeep u =>
      cases hv
      exact hold task htask
    | answer q reply =>
      cases Machine.answered hv with
      | value asks met =>
        rcases getElem?_set_cases htask with ⟨rfl, rfl⟩ | htask
        · obtain ⟨asking, hasking, hready⟩ := Option.map_eq_some_iff.mp asks
          have hunder := (hold asking hasking).ready
          rw [hready] at hunder
          refine hunder.2 _ (hh _ _ ?_)
          exact ⟨moves, n, reply, _, _, List.prefix_append _ _, hn, met, List.suffix_rfl⟩
        · exact hold task htask
      | broken asks met =>
        rcases getElem?_set_cases htask with ⟨_, rfl⟩ | htask
        · trivial
        · exact hold task htask

/-- What a task asks is one of the terms. -/
theorem may_of_asks {t : Terms} (ht : t.Open)
    (hi : ∀ new : NewTransaction, trimBlanks new.key.toList ≠ [] → t.Checks new →
      t.may (.store (.insert new)))
    (hm : Machine.play s {} moves = some m)
    (hh : ∀ call a, Heard s moves m p call a → t.trust call a) {call : Call} (ha : m.Asks p call) :
    t.may call := by
  obtain ⟨next, hnext⟩ := ha
  obtain ⟨task, htask, hready⟩ := Option.map_eq_some_iff.mp hnext
  have hunder := (under_of_heard ht hi hm hh task htask).ready
  rw [hready] at hunder
  exact hunder.1

/-- Every call of the history was asked on the way. -/
theorem asked_of_history (hm : Machine.play s {} moves = some m) :
    ∀ e ∈ m.history, ∃ before n, before <+: moves ∧ Machine.play s {} before = some n ∧
      n.Asks e.task e.call := by
  induction moves using List.reverseRecOn generalizing m with
  | nil =>
    cases hm
    simp
  | append_singleton moves v ih =>
    obtain ⟨n, hn, hv⟩ := Machine.play_concat hm
    have hold : ∀ e ∈ n.history, ∃ before n, before <+: moves ++ [v] ∧
        Machine.play s {} before = some n ∧ n.Asks e.task e.call := by
      intro e he
      obtain ⟨before, n, hb, hrest⟩ := ih hn e he
      exact ⟨before, n, hb.trans (List.prefix_append _ _), hrest⟩
    intro e he
    rcases Machine.move_table hv with ⟨-, hh⟩ | ⟨p, reply, -, ha⟩
    · exact hold e (hh ▸ he)
    · obtain ⟨call, eff, hasks, -, hh⟩ := ha.change (Reachable.empty.play hn).sound
      rw [hh] at he
      rcases List.mem_cons.mp he with rfl | he
      · exact ⟨moves, n, List.prefix_append _ _, hn, hasks⟩
      · exact hold e he

/-- The record was stored for the task at the machine, where nobody had its id. -/
structure StoredAt (n : Machine) (p : Nat) (reply : Reply) (r : TransactionRecord) : Prop where
  asks : n.Asks p (.store (.insert r.payload))
  met : ∃ a σ, n.stores.meet (.store (.insert r.payload)) reply = some (.value a, .inserted r, σ)
  free : n.stores.table.row? r.id = none

/-- Every record goes back to the call that stored it. -/
theorem stored_of_play (hm : Machine.play s {} moves = some m) :
    ∀ r ∈ m.stores.table.rows, ∃ before n p reply r₀, before <+: moves ∧
      Machine.play s {} before = some n ∧ StoredAt n p reply r₀ ∧ r₀.Before r ∧
      (⟨p, .store (.insert r₀.payload), reply, .inserted r₀⟩ :: n.history) <:+ m.history := by
  induction moves using List.reverseRecOn generalizing m with
  | nil =>
    cases hm
    simp
  | append_singleton moves v ih =>
    obtain ⟨n, hn, hv⟩ := Machine.play_concat hm
    have hs := (Reachable.empty.play hn).sound
    have hgrow := (Machine.move_onward hv hs).2.2
    have hold : ∀ r ∈ n.stores.table.rows, ∀ r', r.Before r' → ∃ before n p reply r₀,
        before <+: moves ++ [v] ∧ Machine.play s {} before = some n ∧ StoredAt n p reply r₀ ∧
        r₀.Before r' ∧
        (⟨p, .store (.insert r₀.payload), reply, .inserted r₀⟩ :: n.history) <:+ m.history := by
      intro r hr r' hb'
      obtain ⟨before, k, p, reply, r₀, hb, hk, hi, hr₀, hh⟩ := ih hn r hr
      exact ⟨before, k, p, reply, r₀, hb.trans (List.prefix_append _ _), hk, hi, hr₀.trans hb',
        hh.trans hgrow⟩
    intro r hr
    rcases Machine.move_table hv with ⟨ht, -⟩ | ⟨p, reply, -, ha⟩
    · exact hold r (ht ▸ hr) r (.refl r)
    · cases ha with
      | broken asks met =>
        obtain ⟨rfl, rfl⟩ := Stores.meet_panic met
        exact hold r hr r (.refl r)
      | value asks met =>
        have hc := (Stores.meet_change hs met).1
        rcases hc.origin_before hs r hr with ⟨q, hq, hb⟩ | rfl
        · exact hold q hq r hb
        · obtain ⟨new, rfl, rfl⟩ := Stores.meet_inserted met
          refine ⟨moves, n, p, reply, r, List.prefix_append _ _, hn, ⟨⟨_, asks⟩, ⟨_, _, met⟩, ?_⟩,
            .refl r, List.suffix_rfl⟩
          cases hc with
          | inserted table =>
            cases table with
            | inserted _ _ free => exact free

end
end Settlement
