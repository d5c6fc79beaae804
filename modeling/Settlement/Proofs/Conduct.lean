import Settlement.Proofs.Stages

/-!
What it takes for a program to follow the stages: one rule for each way to put programs together, and
one for each kind of call.
-/

namespace Settlement

def Ends (ok : α → Stage → Prop) (err : ε → Stage → Prop) : Except ε α → Stage → Prop
  | .ok a => ok a
  | .error e => err e

/-- The program follows the stages from the given one. -/
def Conducts (p : Program ε α) (ok : α → Stage → Prop) (err : ε → Stage → Prop) (st : Stage) :
    Prop :=
  Flow.Follows (Ends ok err) p.run st

namespace Conducts

section

variable {ok : α → Stage → Prop} {err : ε → Stage → Prop} {st : Stage}

@[simp] theorem of_pure {a : α} : Conducts (pure a : Program ε α) ok err st ↔ ok a st := Iff.rfl

@[simp] theorem of_throw {e : ε} : Conducts (throw e : Program ε α) ok err st ↔ err e st := Iff.rfl

@[simp] theorem of_bind {p : Program ε β} {f : β → Program ε α} :
    Conducts (p >>= f) ok err st ↔ Conducts p (fun b st => Conducts (f b) ok err st) err st := by
  have he : (fun r : Except ε β => (ExceptT.bindCont f r).Follows (Ends ok err)) =
      Ends (fun b => Conducts (f b) ok err) err := by
    funext r st
    cases r <;> rfl
  show Flow.Follows _ (p.run >>= ExceptT.bindCont f) st ↔ _
  rw [Flow.follows_bind, he]
  rfl

@[simp] theorem of_map {p : Program ε β} {f : β → α} :
    Conducts (f <$> p) ok err st ↔ Conducts p (fun b => ok (f b)) err st := by
  rw [map_eq_pure_bind, of_bind]
  rfl

@[simp] theorem of_attempt {p : Program δ β} {ok : Except δ β → Stage → Prop} :
    Conducts (Fallible.attempt p : Program ε (Except δ β)) ok err st ↔
      Conducts p (fun b => ok (.ok b)) (fun e => ok (.error e)) st := by
  have he : (fun r : Except δ β => Flow.Follows (Ends ok err) (Flow.done (Except.ok r))) =
      Ends (fun b => ok (.ok b)) (fun e => ok (.error e)) := by
    funext r st
    cases r <;> rfl
  show Flow.Follows (Ends ok err) (p.run >>= fun r => Flow.done (Except.ok r)) st ↔ _
  rw [Flow.follows_bind, he]
  rfl

@[simp] theorem of_mapError {p : Program δ α} {f : δ → ε} :
    Conducts (Fallible.mapError f p) ok err st ↔ Conducts p ok (fun e => err (f e)) st := by
  have he : (fun r : Except δ α => Flow.Follows (Ends ok err) (Flow.done (r.mapError f))) =
      Ends ok (fun e => err (f e)) := by
    funext r st
    cases r <;> rfl
  show Flow.Follows (Ends ok err) (p.run >>= fun r => Flow.done (r.mapError f)) st ↔ _
  rw [Flow.follows_bind, he]
  rfl

@[simp] theorem of_known {r : Except ε α} :
    Conducts (Fallible.known r : Program ε α) ok err st ↔ Ends ok err r st := Iff.rfl

@[simp] theorem of_log {ok : Unit → Stage → Prop} {level : Log.Level} {target message : String}
    {fields : List (String × Log.FieldValue)} :
    Conducts (Fallible.log level target message fields : Program ε Unit) ok err st ↔ ok () st :=
  Iff.rfl

@[simp] theorem of_breakOff {message : String} :
    Conducts (Fallible.breakOff message : Program ε α) ok err st ↔ st.Idle :=
  Iff.rfl

theorem mono {p : Program ε α} {ok' : α → Stage → Prop} {err' : ε → Stage → Prop}
    (h : Conducts p ok err st) (ho : ∀ a st, ok a st → ok' a st)
    (he : ∀ e st, err e st → err' e st) : Conducts p ok' err' st := by
  refine Flow.Follows.mono h fun r st hr => ?_
  cases r with
  | ok a => exact ho a st hr
  | error e => exact he e st hr

/-- A leg, as a driver asks for it. -/
theorem of_leg (leg : Leg) {tx : TransactionRecord} {account : AccountId}
    {ok : MutationOutcome → Stage → Prop} {err : LedgerError → Stage → Prop}
    (hl : leg.account tx.payload = some account) (ho : ∀ outcome, ok outcome (.moved leg tx))
    (hc : ∀ e, e.isRetryable = true → err e (.idle (some tx)))
    (hr : ∀ e, e.isRetryable = false → err e (.refused leg tx)) :
    Conducts
      (Program.mutate leg.direction account (leg.amount tx.payload) ⟨tx.id, leg.phase⟩) ok err
      (.moving leg tx) := by
  intro a _
  cases a with
  | ok outcome => exact ⟨_, .moved hl, ho outcome⟩
  | error e =>
    cases he : e.isRetryable with
    | true => exact ⟨_, .contended hl he, hc e he⟩
    | false => exact ⟨_, .refused hl he, hr e he⟩

theorem of_advanceStep (leg : Leg) {tx : TransactionRecord} {step : TransactionStep}
    {ok : Bool → Stage → Prop} {err : ServiceError → Stage → Prop}
    (hl : leg.step? = some step) (ho : ∀ b, ok b (.recorded leg tx))
    (he : ∀ e, err e (.failed tx (.plain e))) :
    Conducts (Program.advanceStep tx.id step) ok err (.recording leg tx) := by
  intro a _
  cases a with
  | ok b => exact ⟨_, .recorded hl, ho b⟩
  | error e => exact ⟨_, .unrecorded hl, he e⟩

theorem of_markProcessing {last : Option TransactionRecord} {id : TransactionId}
    {ok : Bool → Stage → Prop} {err : ServiceError → Stage → Prop} (ht : ok true (.taken id))
    (hf : ok false (.idle none)) (he : ∀ e, err e (.idle none)) :
    Conducts (Program.markProcessing id) ok err (.idle last) := by
  intro a _
  cases a with
  | ok taken =>
    cases taken with
    | true => exact ⟨_, .take, ht⟩
    | false => exact ⟨_, .pass (by simp), hf⟩
  | error e => exact ⟨_, .pass (by simp), he e⟩

end
end Conducts

/-- A call that writes nothing, made between records. -/
theorem look_follows {last : Option TransactionRecord} {call : Call}
    {post : call.Answer → Stage → Prop}
    (hc : call.writes = false) (hp : ∀ a, Stage.Expects (.idle last) call a → post a (.idle none)) :
    Flow.Follows post (Flow.query call) (.idle last) :=
  fun a ha => ⟨_, .look hc, hp a ha⟩

def Rests (p : Program ε α) (value : α → Prop) : Prop :=
  ∀ last, Conducts p (fun a st => st.Idle ∧ value a) (fun _ st => st.Idle) (.idle last)

namespace Rests

section

variable {value : α → Prop}

theorem bind {given : β → Prop} {p : Program ε β} {f : β → Program ε α} (hp : Rests p given)
    (hf : ∀ b, given b → Rests (f b) value) : Rests (p >>= f) value := by
  intro last
  rw [Conducts.of_bind]
  refine Conducts.mono (hp last) ?_ fun _ _ h => h
  rintro b _ ⟨⟨next, rfl⟩, hb⟩
  exact hf b hb next

theorem of_pure {a : α} (h : value a) : Rests (pure a : Program ε α) value :=
  fun last => ⟨⟨last, rfl⟩, h⟩

theorem of_throw {e : ε} : Rests (throw e : Program ε α) value := fun last => ⟨last, rfl⟩

/-- What would follow an error does not matter. -/
theorem of_throw_bind {e : ε} {f : β → Program ε α} : Rests (throw e >>= f) value :=
  fun last => ⟨last, rfl⟩

theorem of_breakOff {message : String} : Rests (Fallible.breakOff message : Program ε α) value :=
  fun last => ⟨last, rfl⟩

theorem of_log {level : Log.Level} {target message : String}
    {fields : List (String × Log.FieldValue)} :
    Rests (Fallible.log level target message fields : Program ε Unit) fun _ => True :=
  fun last => ⟨⟨last, rfl⟩, trivial⟩

theorem of_known {r : Except ε α} (h : ∀ a, r = .ok a → value a) :
    Rests (Fallible.known r : Program ε α) value := by
  intro last
  cases r with
  | ok a => exact ⟨⟨last, rfl⟩, h a rfl⟩
  | error e => exact ⟨last, rfl⟩

theorem of_mapError {p : Program δ α} {f : δ → ε} (hp : Rests p value) :
    Rests (Fallible.mapError f p) value := by
  intro last
  rw [Conducts.of_mapError]
  exact hp last

theorem of_attempt {p : Program δ α} (hp : Rests p value) :
    Rests (Fallible.attempt p : Program ε (Except δ α)) fun _ => True := by
  intro last
  rw [Conducts.of_attempt]
  exact Conducts.mono (hp last) (fun _ _ h => ⟨h.1, trivial⟩) fun _ _ h => ⟨h, trivial⟩

/-- An answer that nothing is asked of. -/
theorem any (r : Except ε α) :
    Ends (fun _ st => st.Idle ∧ True) (fun _ st => st.Idle) r (.idle none) := by
  cases r with
  | ok a => exact ⟨⟨none, rfl⟩, trivial⟩
  | error e => exact ⟨none, rfl⟩

end
end Rests

end Settlement
