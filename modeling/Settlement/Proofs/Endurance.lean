import Settlement.Proofs.Machine

/-!
Runs that may be cut off between any two calls. A flow endures if the stores are as they should be
wherever it is cut, and if it comes to its end where it is not. Its surroundings are faithful here:
what they answer is what they did.
-/

namespace Settlement

/-- The reply of surroundings that did what they say. -/
def Reply.faithful : Reply → Bool
  | served _ | elsewhere .. => true
  | refused _ | lost .. => false

/-- Did the ledger do what it was asked for? Other calls are not looked at. -/
def Call.granted : (call : Call) → call.Answer → Bool
  | .ledger (.getAccount _), a => a.isOk
  | .ledger (.mutate ..), a => a.isOk
  | _, _ => true

namespace Reply

variable {reply : Reply}

theorem faithful_arrives (h : reply.faithful = true) : reply.arrives = true := by
  cases reply with
  | served | elsewhere => rfl
  | refused | lost => cases h

theorem faithful_storeFails (h : reply.faithful = true) : reply.storeFails = false := by
  cases reply with
  | served | elsewhere => rfl
  | refused | lost => cases h

end Reply

namespace Stores

variable {σ σ' : Stores} {reply : Reply} {eff : Effect}

theorem meet_store_faithful {call : StoreCall} {a : call.Answer} (hf : reply.faithful = true)
    (h : σ.meet (.store call) reply = some (.value a, eff, σ')) :
    ∃ now, TransactionTable.answer now call σ.table = (.value a, σ'.table) := by
  rcases meet_store h with ⟨_, _, _, hn⟩ | ⟨now, real, hr, _, _, rfl | ⟨_, hn, _⟩⟩
  · rw [Reply.faithful_storeFails hf] at hn
    cases hn
  · exact ⟨now, hr⟩
  · rw [Reply.faithful_arrives hf] at hn
    cases hn

theorem meet_ledger_faithful {call : LedgerCall} {a : call.Answer} (hf : reply.faithful = true)
    (hg : Call.granted (.ledger call) a = true)
    (h : σ.meet (.ledger call) reply = some (.value a, eff, σ')) :
    Book.answer call σ.book = (.value a, σ'.book) ∧ σ'.table = σ.table := by
  rcases meet_ledger h with ⟨_, _, e, rfl⟩ | ⟨real, hr, ht, _, rfl | ⟨_, hn⟩⟩
  · cases call <;> cases hg
  · exact ⟨hr, ht⟩
  · rw [Reply.faithful_arrives hf] at hn
    cases hn

end Stores

namespace Flow

/-- What is left of a task once its calls got the replies, and the stores it leaves behind if it is
cut off then. -/
def after : Task → List Reply → Stores → Option (Task × Stores)
  | .note _ rest, replies, σ => rest.after replies σ
  | .done a, [], σ => some (.done a, σ)
  | .panic message, [], σ => some (.panic message, σ)
  | .ask call next, [], σ => some (.ask call next, σ)
  | .done _, _ :: _, _ | .panic _, _ :: _, _ => none
  | .ask call next, reply :: replies, σ =>
    (σ.meet call reply).bind fun (outcome, _, σ) =>
      match outcome with
      | .value a => (next a).after replies σ
      | .panic _ => none

def granted : Task → List Reply → Stores → Bool
  | .note _ rest, replies, σ => rest.granted replies σ
  | .ask call next, reply :: replies, σ =>
    match σ.meet call reply with
    | some (.value a, _, σ) => call.granted a && (next a).granted replies σ
    | _ => false
  | _, _, _ => true

/-- Left alone with faithful surroundings, the task comes to its end. -/
def Finishes (x : Task) (σ τ : Stores) : Prop :=
  ∃ replies : List Reply, replies.all Reply.faithful = true ∧ x.after replies σ = some (.done (), τ)

/-- What every answered call of a run keeps, the run keeps. -/
theorem after_keeps {I : Task → Stores → Prop} {x y : Task} {replies : List Reply} {σ τ : Stores}
    (hnote : ∀ e rest σ, I (.note e rest) σ → I rest σ)
    (hask : ∀ (call : Call) (next : call.Answer → Task) (reply : Reply) (a : call.Answer)
      (eff : Effect) (σ σ' : Stores), reply ∈ replies → σ.meet call reply = some (.value a, eff, σ') →
        I (.ask call next) σ → I (next a) σ')
    (hr : x.after replies σ = some (y, τ)) (hx : I x σ) : I y τ := by
  induction x generalizing replies σ with
  | note e rest ih => exact ih hask hr (hnote e rest σ hx)
  | done | panic =>
    cases replies with
    | nil =>
      cases hr
      exact hx
    | cons => cases hr
  | ask call next ih =>
    cases replies with
    | nil =>
      cases hr
      exact hx
    | cons reply replies =>
      rw [after] at hr
      obtain ⟨⟨outcome, eff, σ'⟩, hm, hrun⟩ := Option.bind_eq_some_iff.mp hr
      cases outcome with
      | panic => cases hrun
      | value a =>
        refine ih a (fun call next reply b eff σ σ' hmem => ?_) hrun
          (hask call next reply a eff σ σ' List.mem_cons_self hm hx)
        exact hask call next reply b eff σ σ' (List.mem_cons_of_mem _ hmem)

/-- Wherever the flow is cut, the stores and the call that would be next are good, as long as the
ledger does what it is asked for. Where it is not cut, it ends as it should. -/
def Endures (good : Stores → Call → Prop) (post : α → Stores → Prop) :
    Flow Call Call.Answer α → Stores → Prop
  | .done a, σ => post a σ
  | .panic _, _ => False
  | .note _ rest, σ => rest.Endures good post σ
  | .ask call next, σ =>
    good σ call ∧ ∀ (reply : Reply) (a : call.Answer) (eff : Effect) (σ' : Stores),
      reply.faithful = true → σ.meet call reply = some (.value a, eff, σ') →
        call.granted a = true → (next a).Endures good post σ'

section

variable {good : Stores → Call → Prop} {σ τ : Stores}

theorem endures_bind (x : Flow Call Call.Answer α) (f : α → Flow Call Call.Answer β)
    (post : β → Stores → Prop) (σ : Stores) :
    (x >>= f).Endures good post σ ↔ x.Endures good (fun a => (f a).Endures good post) σ := by
  induction x generalizing σ with
  | done a => rfl
  | panic m => rfl
  | note e rest ih => exact ih σ
  | ask q next ih => simp only [ask_bind, Endures, ih]

theorem Endures.mono {x : Flow Call Call.Answer α} {post post' : α → Stores → Prop}
    (h : x.Endures good post σ) (hp : ∀ a σ, post a σ → post' a σ) : x.Endures good post' σ := by
  induction x generalizing σ with
  | done a => exact hp a σ h
  | panic m => exact h
  | note e rest ih => exact ih h
  | ask q next ih => exact ⟨h.1, fun reply a eff σ' hf hm hg => ih a (h.2 reply a eff σ' hf hm hg)⟩

variable {post : Unit → Stores → Prop} {x y : Task} {replies : List Reply}

/-- What is left of a task that endures endures. -/
theorem Endures.after (h : x.Endures good post σ) (hr : x.after replies σ = some (y, τ))
    (hf : replies.all Reply.faithful = true) (hg : x.granted replies σ = true) :
    y.Endures good post τ := by
  induction x generalizing replies σ with
  | note e rest ih => exact ih h hr hf hg
  | done | panic =>
    cases replies with
    | nil =>
      cases hr
      exact h
    | cons => cases hr
  | ask call next ih =>
    cases replies with
    | nil =>
      cases hr
      exact h
    | cons reply replies =>
      simp only [List.all_cons, Bool.and_eq_true] at hf
      rw [Flow.after] at hr
      obtain ⟨⟨outcome, eff, σ'⟩, hm, hrun⟩ := Option.bind_eq_some_iff.mp hr
      cases outcome with
      | panic => cases hrun
      | value a =>
        simp only [granted, hm, Bool.and_eq_true] at hg
        exact ih a (h.2 reply a eff σ' hf.1 hm hg.1) hrun hf.2 hg.2

/-- The stores are good wherever the task is cut, be it at its end. -/
theorem Endures.cut {I : Stores → Prop} (h : x.Endures good post σ) (hp : ∀ σ, post () σ → I σ)
    (hg : ∀ σ call, good σ call → I σ) : I σ := by
  induction x with
  | done a => exact hp σ h
  | panic m => exact h.elim
  | note e rest ih => exact ih h
  | ask call next => exact hg σ call h.1

/-- If the ledger does whatever it is asked for in good stores, nothing else needs to be known of a
run. -/
theorem Endures.uncut (h : x.Endures good post σ) (hr : x.after replies σ = some (y, τ))
    (hf : replies.all Reply.faithful = true)
    (grants : ∀ {σ σ' : Stores} {call : Call} {reply : Reply} {a : call.Answer} {eff : Effect},
      good σ call → reply.faithful = true → σ.meet call reply = some (.value a, eff, σ') →
        call.granted a = true) : y.Endures good post τ := by
  refine after_keeps (fun _ _ _ h => h) ?_ hr h
  intro call next reply a eff σ σ' hmem hm h
  have hfr := List.all_eq_true.mp hf reply hmem
  exact h.2 reply a eff σ' hfr hm (grants h.1 hfr hm)

/-- Where every call gets such an answer, the task comes to its end. -/
theorem Endures.finishes (h : x.Endures good post σ)
    (answers : ∀ {σ : Stores} {call : Call}, good σ call → ∃ (reply : Reply) (a : call.Answer)
      (eff : Effect) (σ' : Stores), reply.faithful = true ∧
        σ.meet call reply = some (.value a, eff, σ') ∧ call.granted a = true) :
    ∃ τ, x.Finishes σ τ := by
  induction x generalizing σ with
  | note e rest ih => exact ih h
  | done a => exact ⟨σ, [], rfl, rfl⟩
  | panic m => exact h.elim
  | ask call next ih =>
    obtain ⟨reply, a, eff, σ', hf, hm, ha⟩ := answers h.1
    obtain ⟨τ, replies, hfs, hrun⟩ := ih a (h.2 reply a eff σ' hf hm ha)
    exact ⟨τ, reply :: replies, by simp [hf, hfs], by rw [Flow.after, hm]; exact hrun⟩

end
end Flow

def Succeeds (ok : α → Stores → Prop) : Except ε α → Stores → Prop
  | .ok a => ok a
  | .error _ => fun _ => False

def Survives (good : Stores → Call → Prop) (p : Program ε α) (ok : α → Stores → Prop)
    (σ : Stores) : Prop :=
  p.run.Endures good (Succeeds ok) σ

namespace Survives

section

variable {good : Stores → Call → Prop} {ok : α → Stores → Prop} {σ : Stores}

@[simp] theorem of_pure {a : α} : Survives good (pure a : Program ε α) ok σ ↔ ok a σ := Iff.rfl

@[simp] theorem of_bind {p : Program ε β} {f : β → Program ε α} :
    Survives good (p >>= f) ok σ ↔
      Survives good p (fun b σ => Survives good (f b) ok σ) σ := by
  have he : (fun r : Except ε β => (ExceptT.bindCont f r).Endures good (Succeeds ok)) =
      Succeeds fun b => Survives good (f b) ok := by
    funext r
    cases r <;> rfl
  show Flow.Endures good _ (p.run >>= ExceptT.bindCont f) σ ↔ _
  rw [Flow.endures_bind, he]
  rfl

@[simp] theorem of_map {p : Program ε β} {f : β → α} :
    Survives good (f <$> p) ok σ ↔ Survives good p (fun b => ok (f b)) σ := by
  rw [map_eq_pure_bind, of_bind]
  rfl

@[simp] theorem of_known {r : Except ε α} :
    Survives good (Fallible.known r : Program ε α) ok σ ↔ Succeeds ok r σ := Iff.rfl

@[simp] theorem of_log {ok : Unit → Stores → Prop} {level : Log.Level} {target message : String}
    {fields : List (String × Log.FieldValue)} :
    Survives good (Fallible.log level target message fields : Program ε Unit) ok σ ↔ ok () σ :=
  Iff.rfl

theorem of_attempt {p : Program δ β} {ok : Except δ β → Stores → Prop}
    (h : Survives good p (fun b => ok (.ok b)) σ) :
    Survives good (Fallible.attempt p : Program ε (Except δ β)) ok σ := by
  show Flow.Endures good _ (p.run >>= fun r => Flow.done (Except.ok r)) σ
  rw [Flow.endures_bind]
  refine Flow.Endures.mono h fun r σ hr => ?_
  cases r with
  | ok b => exact hr
  | error e => exact hr.elim

@[simp] theorem of_mapError {p : Program δ α} {f : δ → ε} :
    Survives good (Fallible.mapError f p) ok σ ↔ Survives good p ok σ := by
  have he : (fun r : Except δ α => Flow.Endures good (Succeeds ok)
      (Flow.done (r.mapError f) : Flow Call Call.Answer (Except ε α))) = Succeeds ok := by
    funext r
    cases r <;> rfl
  show Flow.Endures good _ (p.run >>= fun r => Flow.done (r.mapError f)) σ ↔ _
  rw [Flow.endures_bind, he]
  rfl

end
end Survives
end Settlement
