import Settlement.Proofs.Programs

/-!
The ways that a flow can go in surroundings that have more than one answer to a question. A way tells
what was asked, in which state, and what was answered. Main statement: what is told of a flow by its
questions is what holds at the end of each of its ways.
-/

namespace Settlement

/-- The answers that may be given in a state, each with the state it leaves. -/
abbrev Surroundings {Q : Type} (A : Q → Type) (σ : Type) := (q : Q) → σ → A q → σ → Prop

structure Visit {Q : Type} (A : Q → Type) (σ : Type) where
  state : σ
  question : Q
  answer : A question

namespace Flow

variable {Q : Type} {A : Q → Type} {σ α β : Type} {W : Surroundings A σ}

/-- One way of the flow: from a state, through visits, to an outcome and a state. -/
inductive Goes (W : Surroundings A σ) : Flow Q A α → σ → List (Visit A σ) → Outcome α → σ → Prop
  | done {a : α} {s : σ} : Goes W (.done a) s [] (.value a) s
  | panic {message : String} {s : σ} : Goes W (.panic message) s [] (.panic message) s
  | note {e : Log.Event} {rest : Flow Q A α} {s s' : σ} {vs : List (Visit A σ)} {outcome : Outcome α}
      (later : Goes W rest s vs outcome s') : Goes W (.note e rest) s vs outcome s'
  | ask {q : Q} {next : A q → Flow Q A α} {a : A q} {s s₁ s' : σ} {vs : List (Visit A σ)}
      {outcome : Outcome α} (met : W q s a s₁) (later : Goes W (next a) s₁ vs outcome s') :
      Goes W (.ask q next) s (⟨s, q, a⟩ :: vs) outcome s'

def tracing (W : Surroundings A σ) : Asking A (σ × List (Visit A σ)) where
  ask q next s := ∀ a s', W q s.1 a s' → next a (s', s.2 ++ [⟨s.1, q, a⟩])
  mono hn h := fun a s' hw => hn _ _ (h a s' hw)

theorem tells_tracing {x : Flow Q A α} {post : σ × List (Visit A σ) → Outcome α → Prop} {s : σ}
    {past : List (Visit A σ)} :
    x.Tells (tracing W) post (s, past) ↔
      ∀ vs outcome s', x.Goes W s vs outcome s' → post (s', past ++ vs) outcome := by
  constructor
  · intro h vs outcome s' hx
    induction hx generalizing past with
    | done | panic =>
      rw [List.append_nil]
      exact h
    | note _ ih => exact ih h
    | ask met _ ih => simpa using ih (h _ _ met)
  · intro h
    induction x generalizing s past with
    | done | panic =>
      have hp := h _ _ _ (by constructor)
      rwa [List.append_nil] at hp
    | note e rest ih => exact ih fun vs outcome s' hx => h vs outcome s' (.note hx)
    | ask q next ih =>
      intro a s' hw
      refine ih a fun vs outcome s'' hx => ?_
      simpa using h _ _ _ (.ask hw hx)

def way (serve : (q : Q) → σ → Option (A q × σ)) :
    Flow Q A α → σ → Option (List (Visit A σ) × Outcome α × σ)
  | .done a, s => some ([], .value a, s)
  | .panic message, s => some ([], .panic message, s)
  | .note _ rest, s => rest.way serve s
  | .ask q next, s =>
    (serve q s).bind fun served =>
      ((next served.1).way serve served.2).map fun rest => (⟨s, q, served.1⟩ :: rest.1, rest.2)

theorem goes_of_way {serve : (q : Q) → σ → Option (A q × σ)}
    (hw : ∀ q s a s', serve q s = some (a, s') → W q s a s') {x : Flow Q A α} {s s' : σ}
    {vs : List (Visit A σ)} {outcome : Outcome α} (h : x.way serve s = some (vs, outcome, s')) :
    x.Goes W s vs outcome s' := by
  induction x generalizing s vs with
  | done | panic =>
    cases h
    constructor
  | note e rest ih => exact .note (ih h)
  | ask q next ih =>
    obtain ⟨⟨a, s₁⟩, ha, h⟩ := Option.bind_eq_some_iff.mp h
    obtain ⟨⟨vs', outcome', s''⟩, hrest, he⟩ := Option.map_eq_some_iff.mp h
    cases he
    exact .ask (hw q s a s₁ ha) (ih a hrest)

end Flow

section

variable {Q : Type} {A : Q → Type} {σ : Type} {W : Surroundings A σ} {p : Fallible Q A ε α} {s s' : σ}
  {vs : List (Visit A σ)} {R : List (Visit A σ) → Except ε α → σ → Prop}

/-- What a program is reported to do, it does on each of its ways. -/
theorem Flow.Goes.closes {ok : α → σ × List (Visit A σ) → Prop} {err : ε → σ × List (Visit A σ) → Prop}
    {broke : σ × List (Visit A σ) → Prop} {outcome : Flow.Outcome (Except ε α)}
    (h : p.run.Goes W s vs outcome s') (hp : Reports (Flow.tracing W) p ok err broke (s, [])) :
    Closes ok err broke (s', vs) outcome :=
  Flow.tells_tracing.mp hp vs outcome s' h

/-- The program comes to its end on each of its ways, and the end is one that suits the way. -/
def Returns (W : Surroundings A σ) (p : Fallible Q A ε α) (s : σ)
    (R : List (Visit A σ) → Except ε α → σ → Prop) : Prop :=
  ∀ vs outcome s', p.run.Goes W s vs outcome s' → ∃ result, outcome = .value result ∧ R vs result s'

theorem Returns.of_reports (hp : Reports (Flow.tracing W) p (fun a y => R y.2 (.ok a) y.1)
    (fun e y => R y.2 (.error e) y.1) (fun _ => False) (s, [])) : Returns W p s R := by
  intro vs outcome s' h
  have hc := h.closes hp
  rcases outcome with (e | a) | _
  · exact ⟨.error e, rfl, hc⟩
  · exact ⟨.ok a, rfl, hc⟩
  · exact hc.elim

theorem Returns.reports (h : Returns W p s R) (past : List (Visit A σ)) :
    Reports (Flow.tracing W) p (fun a y => ∃ vs, y.2 = past ++ vs ∧ R vs (.ok a) y.1)
      (fun e y => ∃ vs, y.2 = past ++ vs ∧ R vs (.error e) y.1) (fun _ => False) (s, past) := by
  refine Flow.tells_tracing.mpr fun vs outcome s' hx => ?_
  obtain ⟨result, rfl, hr⟩ := h vs outcome s' hx
  cases result with
  | error e => exact ⟨vs, rfl, hr⟩
  | ok a => exact ⟨vs, rfl, hr⟩

end

end Settlement
