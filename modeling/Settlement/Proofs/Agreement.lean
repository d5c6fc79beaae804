import Settlement.Flow

/-!
The same calls answered in two ways, each over a state of its own, side by side. If one call keeps the
two states related, so do all calls one after the other.
-/

namespace Settlement

inductive Flow.Outcome.Alike (ok : α → α → Prop) (err : ε → ε → Prop) :
    Outcome (Except ε α) → Outcome (Except ε α) → Prop
  | value {a b : α} (h : ok a b) : Alike ok err (.value (.ok a)) (.value (.ok b))
  | error {e f : ε} (h : err e f) : Alike ok err (.value (.error e)) (.value (.error f))
  | panic (message : String) : Alike ok err (.panic message) (.panic message)

section

variable {C S T : Type} {A : C → Type} {alike : (c : C) → Flow.Outcome (A c) → Flow.Outcome (A c) → Prop}
  {related : S → T → Prop} {left : (c : C) → S → Flow.Outcome (A c) × S}
  {right : (c : C) → T → Flow.Outcome (A c) × T}

/-- All calls are answered alike on both sides, and the states that they leave are related. -/
def Agree (alike : (c : C) → Flow.Outcome (A c) → Flow.Outcome (A c) → Prop) (related : S → T → Prop)
    (left : (c : C) → S → Flow.Outcome (A c) × S) (right : (c : C) → T → Flow.Outcome (A c) × T) :
    List C → S → T → Prop
  | [], s, t => related s t
  | c :: cs, s, t =>
    alike c (left c s).1 (right c t).1 ∧
      Agree alike related left right cs (left c s).2 (right c t).2

def Along (suits : C → S → Prop) (left : (c : C) → S → Flow.Outcome (A c) × S) : List C → S → Prop
  | [], _ => True
  | c :: cs, s => suits c s ∧ Along suits left cs (left c s).2

theorem Agree.of_step {suits : C → S → Prop} {cs : List C} {s : S} {t : T}
    (step : ∀ c s t, related s t → suits c s →
      alike c (left c s).1 (right c t).1 ∧ related (left c s).2 (right c t).2)
    (h : related s t) (hs : Along suits left cs s) : Agree alike related left right cs s t := by
  induction cs generalizing s t with
  | nil => exact h
  | cons c cs ih =>
    obtain ⟨hc, hcs⟩ := hs
    obtain ⟨ha, hr⟩ := step c s t h hc
    exact ⟨ha, ih hr hcs⟩

theorem Agree.mono {related' : S → T → Prop} {cs : List C} {s : S} {t : T}
    (h : Agree alike related left right cs s t) (hr : ∀ s t, related s t → related' s t) :
    Agree alike related' left right cs s t := by
  induction cs generalizing s t with
  | nil => exact hr s t h
  | cons c cs ih => exact ⟨h.1, ih h.2⟩

end
end Settlement
