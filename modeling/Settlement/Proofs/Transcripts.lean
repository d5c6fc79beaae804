import Settlement.Proofs.Programs

/-!
What a flow asks on one way through it, and what it takes for every way to be as it should: each
question is one that the exchanges before it call for, and the end is one that all of them call for.
Where the questions may come in any order, there is a rule for each way in which programs are put together.
-/

namespace Settlement

structure Exchange {Q : Type} (A : Q → Type) where
  question : Q
  answer : A question

namespace Flow

variable {Q : Type} {A : Q → Type} {α β : Type}

/-- One way through a flow: what was asked and answered, in order, and what came of it. -/
inductive Answered : Flow Q A α → List (Exchange A) → Outcome α → Prop
  | done (a : α) : Answered (.done a) [] (.value a)
  | panic (message : String) : Answered (.panic message) [] (.panic message)
  | note {e : Log.Event} {rest : Flow Q A α} {es : List (Exchange A)} {outcome : Outcome α}
      (later : Answered rest es outcome) : Answered (.note e rest) es outcome
  | ask {q : Q} {next : A q → Flow Q A α} {es : List (Exchange A)} {outcome : Outcome α} (a : A q)
      (later : Answered (next a) es outcome) : Answered (.ask q next) (⟨q, a⟩ :: es) outcome

/-- A way through a flow, and one through what comes after it. -/
theorem Answered.bind {x : Flow Q A α} {f : α → Flow Q A β} {a : α} {es es' : List (Exchange A)}
    {outcome : Outcome β} (hx : x.Answered es (.value a)) (hf : (f a).Answered es' outcome) :
    (x >>= f).Answered (es ++ es') outcome := by
  generalize ha : Outcome.value a = outcome' at hx
  induction hx with
  | done =>
    cases ha
    exact hf
  | panic => cases ha
  | note _ ih => exact .note (ih ha)
  | ask reply _ ih => exact .ask reply (ih ha)

def heard (reply : (q : Q) → A q) : Flow Q A α → List (Exchange A) × Outcome α
  | .done a => ([], .value a)
  | .panic message => ([], .panic message)
  | .note _ rest => rest.heard reply
  | .ask q next => (⟨q, reply q⟩ :: ((next (reply q)).heard reply).1, ((next (reply q)).heard reply).2)

def asked (may : List (Exchange A) → Q → Prop) : Asking A (List (Exchange A)) where
  ask q next past := may past q ∧ ∀ a, next a (past ++ [⟨q, a⟩])
  mono hn h := ⟨h.1, fun a => hn a _ (h.2 a)⟩

variable {may : List (Exchange A) → Q → Prop} {past es : List (Exchange A)}

/-- What is told of a flow holds of each way through it. -/
theorem Tells.answered {x : Flow Q A α} {post : List (Exchange A) → Outcome α → Prop}
    {outcome : Outcome α} (h : x.Tells (asked may) post past) (hx : x.Answered es outcome) :
    post (past ++ es) outcome ∧
      ∀ before e after, es = before ++ e :: after → may (past ++ before) e.question := by
  induction hx generalizing past with
  | done | panic => exact ⟨by rwa [List.append_nil], by simp⟩
  | note _ ih => exact ih h
  | @ask q next es outcome a _ ih =>
    obtain ⟨hpost, hmay⟩ := ih (h.2 a)
    rw [List.append_assoc] at hpost
    refine ⟨hpost, fun before e after he => ?_⟩
    cases before with
    | nil =>
      obtain ⟨rfl, -⟩ := List.cons.inj he
      rw [List.append_nil]
      exact h.1
    | cons first before =>
      obtain ⟨rfl, hes⟩ := List.cons.inj he
      have hlater := hmay before e after hes
      rwa [List.append_assoc] at hlater

def only (among : Q → Prop) : Asking A Unit where
  ask q next _ := among q ∧ ∀ a, next a ()
  mono hn h := ⟨h.1, fun a => hn a () (h.2 a)⟩

def AsksOnly (among : Q → Prop) (x : Flow Q A α) : Prop :=
  x.Tells (only among) (fun _ _ => True) ()

theorem AsksOnly.answered {among : Q → Prop} {x : Flow Q A α} {outcome : Outcome α} (h : x.AsksOnly among)
    (hx : x.Answered es outcome) : ∀ e ∈ es, among e.question := by
  induction hx with
  | done | panic => simp
  | note _ ih => exact ih h
  | ask a _ ih => exact List.forall_mem_cons.mpr ⟨h.1, ih (h.2 a)⟩

/-- A flow of other questions asks what the answering of its own questions does. -/
theorem AsksOnly.through {R : Type} {B : R → Type} {among : Q → Prop} {among' : R → Prop}
    {handler : (q : Q) → Flow R B (A q)} {x : Flow Q A α} (h : x.AsksOnly among)
    (hh : ∀ q, among q → (handler q).AsksOnly among') : (x.through handler).AsksOnly among' := by
  induction x with
  | done | panic => exact trivial
  | note _ rest ih => exact ih h
  | ask q next ih =>
    refine (tells_bind _ _ _ _).mpr ((hh q h.1).mono fun _ outcome _ => ?_)
    cases outcome with
    | value a => exact ih a (h.2 a)
    | panic => exact trivial

end Flow

namespace Fallible

variable {Q : Type} {A : Q → Type} {α β δ ε : Type} {among : Q → Prop}

def AsksOnly (among : Q → Prop) (p : Fallible Q A ε α) : Prop :=
  Reports (Flow.only among) p (fun _ _ => True) (fun _ _ => True) (fun _ => True) ()

theorem asks_run {p : Fallible Q A ε α} : p.run.AsksOnly among ↔ AsksOnly among p := by
  have hend : ∀ (s : Unit) (outcome : Flow.Outcome (Except ε α)),
      Closes (fun _ _ => True) (fun _ _ => True) (fun _ => True) s outcome := by
    rintro s ((_ | _) | _) <;> exact trivial
  exact ⟨fun h => Flow.Tells.mono h fun s outcome _ => hend s outcome,
    fun h => Flow.Tells.mono h fun _ _ _ => trivial⟩

/-- A way through a program that returns, and one through what comes after it. -/
theorem answered_bind {p : Fallible Q A ε β} {f : β → Fallible Q A ε α} {b : β}
    {es es' : List (Exchange A)} {outcome : Flow.Outcome (Except ε α)}
    (hp : p.run.Answered es (.value (.ok b))) (hf : (f b).run.Answered es' outcome) :
    (p >>= f).run.Answered (es ++ es') outcome :=
  Flow.Answered.bind hp hf

namespace AsksOnly

theorem bind {p : Fallible Q A ε β} {f : β → Fallible Q A ε α} (hp : AsksOnly among p)
    (hf : ∀ b, AsksOnly among (f b)) : AsksOnly among (p >>= f) :=
  Reports.of_bind.2 (hp.mono (fun b _ _ => hf b) (fun _ _ h => h) fun _ h => h)

theorem map {p : Fallible Q A ε β} (f : β → α) (hp : AsksOnly among p) : AsksOnly among (f <$> p) :=
  Reports.of_map.2 hp

theorem mapError {p : Fallible Q A δ α} (f : δ → ε) (hp : AsksOnly among p) :
    AsksOnly among (Fallible.mapError f p) :=
  Reports.of_mapError.2 hp

theorem attempt {p : Fallible Q A δ α} (hp : AsksOnly among p) :
    AsksOnly among (Fallible.attempt p : Fallible Q A ε (Except δ α)) :=
  Reports.of_attempt.2 hp

theorem mapM {f : β → Fallible Q A ε α} (hf : ∀ b, AsksOnly among (f b)) (bs : List β) :
    AsksOnly among (bs.mapM f) := by
  induction bs with
  | nil => exact trivial
  | cons b bs ih =>
    rw [List.mapM_cons]
    exact (hf b).bind fun _ => ih.bind fun _ => trivial

end AsksOnly

end Fallible

end Settlement
