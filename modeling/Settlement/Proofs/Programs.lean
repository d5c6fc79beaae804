import Settlement.Flow

/-!
What is said of a program by what is said of its questions. What it takes to ask one is a parameter:
the surroundings may give any answer that fits, or the one that their state gives. Main statements: a
rule for each way in which programs are put together.
-/

namespace Settlement

/-- What it takes to ask a question in a state, for what comes next to be as it should. -/
structure Asking {Q : Type} (A : Q → Type) (σ : Type) where
  ask (q : Q) (next : A q → σ → Prop) : σ → Prop
  mono {q : Q} {next next' : A q → σ → Prop} {s : σ} :
    (∀ a s, next a s → next' a s) → ask q next s → ask q next' s

namespace Flow

variable {Q : Type} {A : Q → Type} {σ α β : Type} {asking : Asking A σ}

/-- Every question can be asked when it is, and every end is as it should be. -/
def Tells (asking : Asking A σ) (post : σ → Outcome α → Prop) : Flow Q A α → σ → Prop
  | .done a, s => post s (.value a)
  | .panic message, s => post s (.panic message)
  | .note _ rest, s => rest.Tells asking post s
  | .ask q next, s => asking.ask q (fun a => (next a).Tells asking post) s

def Continues (post : σ → Outcome β → Prop) (next : α → σ → Prop) (s : σ) : Outcome α → Prop
  | .value a => next a s
  | .panic message => post s (.panic message)

theorem tells_bind (x : Flow Q A α) (f : α → Flow Q A β) (post : σ → Outcome β → Prop) (s : σ) :
    (x >>= f).Tells asking post s ↔
      x.Tells asking (Continues post fun a => (f a).Tells asking post) s := by
  induction x generalizing s with
  | done a => rfl
  | panic message => rfl
  | note e rest ih => exact ih s
  | ask q next ih =>
    exact ⟨asking.mono fun a s => (ih a s).mp, asking.mono fun a s => (ih a s).mpr⟩

theorem Tells.mono {x : Flow Q A α} {post post' : σ → Outcome α → Prop} {s : σ}
    (h : x.Tells asking post s) (hp : ∀ s outcome, post s outcome → post' s outcome) :
    x.Tells asking post' s := by
  induction x generalizing s with
  | done a => exact hp _ _ h
  | panic message => exact hp _ _ h
  | note e rest ih => exact ih h
  | ask q next ih => exact asking.mono (fun a s => ih a) h

end Flow

def Closes (ok : α → σ → Prop) (err : ε → σ → Prop) (broke : σ → Prop) (s : σ) :
    Flow.Outcome (Except ε α) → Prop
  | .value (.ok a) => ok a s
  | .value (.error e) => err e s
  | .panic _ => broke s

/-- What is told of a flow, told of a program that may fail. -/
def Reports {Q : Type} {A : Q → Type} (asking : Asking A σ) (p : Fallible Q A ε α)
    (ok : α → σ → Prop) (err : ε → σ → Prop) (broke : σ → Prop) (s : σ) : Prop :=
  p.run.Tells asking (Closes ok err broke) s

namespace Reports

section

variable {Q : Type} {A : Q → Type} {asking : Asking A σ} {ok : α → σ → Prop} {err : ε → σ → Prop}
  {broke : σ → Prop} {s : σ}

@[simp] theorem of_pure {a : α} :
    Reports asking (pure a : Fallible Q A ε α) ok err broke s ↔ ok a s := Iff.rfl

@[simp] theorem of_throw {e : ε} :
    Reports asking (throw e : Fallible Q A ε α) ok err broke s ↔ err e s := Iff.rfl

@[simp] theorem of_bind {p : Fallible Q A ε β} {f : β → Fallible Q A ε α} :
    Reports asking (p >>= f) ok err broke s ↔
      Reports asking p (fun b => Reports asking (f b) ok err broke) err broke s := by
  have he : Flow.Continues (Closes ok err broke)
        (fun r s => (ExceptT.bindCont f r).Tells asking (Closes ok err broke) s) =
      Closes (fun b => Reports asking (f b) ok err broke) err broke := by
    funext s outcome
    rcases outcome with (_ | _) | _ <;> rfl
  show Flow.Tells _ _ (p.run >>= ExceptT.bindCont f) s ↔ _
  rw [Flow.tells_bind, he]
  rfl

@[simp] theorem of_map {p : Fallible Q A ε β} {f : β → α} :
    Reports asking (f <$> p) ok err broke s ↔ Reports asking p (fun b => ok (f b)) err broke s := by
  rw [map_eq_pure_bind, of_bind]
  rfl

@[simp] theorem of_attempt {p : Fallible Q A δ β} {ok : Except δ β → σ → Prop} :
    Reports asking (Fallible.attempt p : Fallible Q A ε (Except δ β)) ok err broke s ↔
      Reports asking p (fun b => ok (.ok b)) (fun e => ok (.error e)) broke s := by
  have he : Flow.Continues (Closes ok err broke)
        (fun r s => Flow.Tells asking (Closes ok err broke) (.done (Except.ok r)) s) =
      Closes (fun b => ok (.ok b)) (fun e => ok (.error e)) broke := by
    funext s outcome
    rcases outcome with (_ | _) | _ <;> rfl
  show Flow.Tells _ _ (p.run >>= fun r => Flow.done (Except.ok r)) s ↔ _
  rw [Flow.tells_bind, he]
  rfl

@[simp] theorem of_mapError {p : Fallible Q A δ α} {f : δ → ε} :
    Reports asking (p.mapError f) ok err broke s ↔
      Reports asking p ok (fun e => err (f e)) broke s := by
  have he : Flow.Continues (Closes ok err broke)
        (fun r s => Flow.Tells asking (Closes ok err broke) (.done (r.mapError f)) s) =
      Closes ok (fun e => err (f e)) broke := by
    funext s outcome
    rcases outcome with (_ | _) | _ <;> rfl
  show Flow.Tells _ _ (p.run >>= fun r => Flow.done (r.mapError f)) s ↔ _
  rw [Flow.tells_bind, he]
  rfl

@[simp] theorem of_known {r : Except ε α} :
    Reports asking (Fallible.known r : Fallible Q A ε α) ok err broke s ↔
      Closes ok err broke s (.value r) := Iff.rfl

@[simp] theorem of_log {ok : Unit → σ → Prop} {level : Log.Level} {target message : String}
    {fields : List (String × Log.FieldValue)} :
    Reports asking (Fallible.log level target message fields : Fallible Q A ε Unit) ok err broke s ↔
      ok () s := Iff.rfl

@[simp] theorem of_breakOff {message : String} :
    Reports asking (Fallible.breakOff message : Fallible Q A ε α) ok err broke s ↔ broke s :=
  Iff.rfl

theorem mono {p : Fallible Q A ε α} {ok' : α → σ → Prop} {err' : ε → σ → Prop} {broke' : σ → Prop}
    (h : Reports asking p ok err broke s) (ho : ∀ a s, ok a s → ok' a s)
    (he : ∀ e s, err e s → err' e s) (hb : ∀ s, broke s → broke' s) :
    Reports asking p ok' err' broke' s := by
  refine Flow.Tells.mono h fun s outcome hr => ?_
  rcases outcome with (e | a) | _
  · exact he e s hr
  · exact ho a s hr
  · exact hb s hr

end
end Reports

end Settlement
