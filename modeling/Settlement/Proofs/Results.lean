import Settlement.Proofs.Programs

/-!
What a flow comes to where every question has one answer, with a rule for each way in which flows are
put together.
-/

namespace Settlement
namespace Flow

section

variable {Q S α β : Type} {A : Q → Type} {answer : (q : Q) → S → Outcome (A q) × S} {w w₁ w' : S}

/-- The flow comes to the value, and leaves everything as it then is. -/
def Comes (x : Flow Q A α) (answer : (q : Q) → S → Outcome (A q) × S) (w : S) (value : α) (w' : S) :
    Prop :=
  ∃ events, x.run answer w = (.value value, events, w')

theorem comes_done (value : α) : (Flow.done value).Comes answer w value w := ⟨[], rfl⟩

theorem Comes.note {e : Log.Event} {rest : Flow Q A α} {value : α} (h : rest.Comes answer w value w') :
    (Flow.note e rest).Comes answer w value w' := by
  obtain ⟨events, h⟩ := h
  exact ⟨e :: events, by simp only [run, h]⟩

theorem Comes.ask {q : Q} {next : A q → Flow Q A α} {a : A q} {value : α}
    (ha : answer q w = (.value a, w₁)) (h : (next a).Comes answer w₁ value w') :
    (Flow.ask q next).Comes answer w value w' := by
  obtain ⟨events, h⟩ := h
  exact ⟨events, by simp only [run, ha, h]⟩

theorem Comes.bind {x : Flow Q A α} {f : α → Flow Q A β} {a : α} {b : β}
    (hx : x.Comes answer w a w₁) (hf : (f a).Comes answer w₁ b w') : (x >>= f).Comes answer w b w' := by
  obtain ⟨events, hx⟩ := hx
  induction x generalizing w events with
  | done =>
    cases hx
    exact hf
  | panic => cases hx
  | note e rest ih =>
    rcases hr : rest.run answer w with ⟨outcome, later, w₂⟩
    simp only [run, hr, Prod.mk.injEq] at hx
    obtain ⟨rfl, rfl, rfl⟩ := hx
    exact (ih later hr).note
  | ask q next ih =>
    rcases ha : answer q w with ⟨outcome, w₂⟩
    cases outcome with
    | value a =>
      simp only [run, ha] at hx
      exact .ask ha (ih a events hx)
    | panic message =>
      simp only [run, ha, Prod.mk.injEq] at hx
      cases hx.1

def answering (answer : (q : Q) → S → Outcome (A q) × S) : Asking A S where
  ask q next w := ∃ a w', answer q w = (.value a, w') ∧ next a w'
  mono hn h := by
    obtain ⟨a, w', ha, h⟩ := h
    exact ⟨a, w', ha, hn a w' h⟩

/-- What is told of a flow holds when it has run. -/
theorem Tells.run {x : Flow Q A α} {post : S → Outcome α → Prop} (h : x.Tells (answering answer) post w) :
    ∃ outcome events w', x.run answer w = (outcome, events, w') ∧ post w' outcome := by
  induction x generalizing w with
  | done | panic => exact ⟨_, _, _, rfl, h⟩
  | note e rest ih =>
    obtain ⟨outcome, events, w', hr, hp⟩ := ih h
    exact ⟨outcome, e :: events, w', by simp only [Flow.run, hr], hp⟩
  | ask q next ih =>
    obtain ⟨a, w₁, ha, h⟩ := h
    obtain ⟨outcome, events, w', hr, hp⟩ := ih a h
    exact ⟨outcome, events, w', by simp only [Flow.run, ha, hr], hp⟩

end
end Flow

/-- What two programs in sequence come to. -/
theorem Fallible.comes_bind {Q S : Type} {A : Q → Type} {answer : (q : Q) → S → Flow.Outcome (A q) × S}
    {w w₁ w' : S} {p : Fallible Q A ε α} {f : α → Fallible Q A ε β} {a : α} {result : Except ε β}
    (hp : p.run.Comes answer w (.ok a) w₁) (hf : (f a).run.Comes answer w₁ result w') :
    (p >>= f).run.Comes answer w result w' :=
  Flow.Comes.bind (f := ExceptT.bindCont f) hp hf

end Settlement
