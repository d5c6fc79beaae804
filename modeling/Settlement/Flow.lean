import Settlement.Log.Event

/-!
Programs that ask their surroundings for answers. A flow is the tree of everything a program can do:
what it asks next depends on the answers so far. Surroundings are handlers of the questions, so one
program runs over memory, over a database and over scripted answers. Main statement: flows are a
lawful monad.
-/

namespace Settlement

/-- `A q` is the type of the answers to the question `q`. -/
inductive Flow (Q : Type) (A : Q → Type) (α : Type) : Type where
  | done (value : α)
  /-- The program breaks off; what was done before stays done. -/
  | panic (message : String)
  | note (event : Log.Event) (rest : Flow Q A α)
  | ask (question : Q) (next : A question → Flow Q A α)

namespace Flow

variable {Q R : Type} {A : Q → Type} {B : R → Type} {α β γ : Type}

protected def bind : Flow Q A α → (α → Flow Q A β) → Flow Q A β
  | done a, f => f a
  | panic m, _ => panic m
  | note e rest, f => note e (rest.bind f)
  | ask q next, f => ask q fun a => (next a).bind f

instance : Monad (Flow Q A) where
  pure := done
  bind := Flow.bind

@[simp] theorem pure_eq (a : α) : (pure a : Flow Q A α) = done a := rfl

@[simp] theorem done_bind (a : α) (f : α → Flow Q A β) : (done a >>= f) = f a := rfl

@[simp] theorem panic_bind (m : String) (f : α → Flow Q A β) : (panic m >>= f) = panic m := rfl

@[simp] theorem note_bind (e : Log.Event) (rest : Flow Q A α) (f : α → Flow Q A β) :
    (note e rest >>= f) = note e (rest >>= f) := rfl

@[simp] theorem ask_bind (q : Q) (next : A q → Flow Q A α) (f : α → Flow Q A β) :
    (ask q next >>= f) = ask q fun a => next a >>= f := rfl

theorem bind_done (x : Flow Q A α) : (x >>= fun a => done a) = x := by
  induction x with
  | done a => rfl
  | panic m => rfl
  | note e rest ih => simp [ih]
  | ask q next ih => simp [ih]

theorem bind_assoc (x : Flow Q A α) (f : α → Flow Q A β) (g : β → Flow Q A γ) :
    ((x >>= f) >>= g) = (x >>= fun a => f a >>= g) := by
  induction x with
  | done a => rfl
  | panic m => rfl
  | note e rest ih => simp [ih]
  | ask q next ih => simp [ih]

instance : LawfulMonad (Flow Q A) :=
  LawfulMonad.mk' (Flow Q A) bind_done (fun _ _ => rfl) bind_assoc

def query (q : Q) : Flow Q A (A q) := ask q done

def log (e : Log.Event) : Flow Q A Unit := note e (done ())

def through (handler : (q : Q) → Flow R B (A q)) : Flow Q A α → Flow R B α
  | done a => done a
  | panic m => panic m
  | note e rest => note e (rest.through handler)
  | ask q next => handler q >>= fun a => (next a).through handler

inductive Outcome (α : Type) where
  | value (a : α)
  | panic (message : String)
deriving DecidableEq

/-- Runs a flow over a state that answers every question, collecting its events in order. -/
def run {S : Type} (answer : (q : Q) → S → Outcome (A q) × S) :
    Flow Q A α → S → Outcome α × List Log.Event × S
  | done a, s => (.value a, [], s)
  | panic m, s => (.panic m, [], s)
  | note e rest, s =>
    let (result, events, s) := rest.run answer s
    (result, e :: events, s)
  | ask q next, s =>
    match answer q s with
    | (.value a, s) => (next a).run answer s
    | (.panic m, s) => (.panic m, [], s)

end Flow

abbrev Fallible (Q : Type) (A : Q → Type) (ε : Type) := ExceptT ε (Flow Q A)

namespace Fallible

variable {Q : Type} {A : Q → Type} {δ ε α : Type}

def log (level : Log.Level) (target message : String) (fields : List (String × Log.FieldValue)) :
    Fallible Q A ε Unit :=
  ExceptT.lift (Flow.log ⟨level, target, message, fields⟩)

def breakOff (message : String) : Fallible Q A ε α := ExceptT.mk (.panic message)

def attempt (p : Fallible Q A δ α) : Fallible Q A ε (Except δ α) := ExceptT.lift p.run

def mapError (f : δ → ε) (p : Fallible Q A δ α) : Fallible Q A ε α :=
  ExceptT.mk (p.run >>= fun r => .done (r.mapError f))

def known (result : Except ε α) : Fallible Q A ε α := ExceptT.mk (.done result)

end Fallible
end Settlement
