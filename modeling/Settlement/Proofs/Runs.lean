import Settlement.Proofs.Replay

/-!
One program at work on stores that others work on as well. Between two of its calls the stores may
become anything, as long as no record is lost.
-/

namespace Settlement

structure Met where
  call : Call
  reply : Reply
  outcome : Flow.Outcome call.Answer
  effect : Effect

namespace Stores

structure Shifts (σ σ' : Stores) : Prop where
  keeps : σ.Keeps σ'
  sound : σ'.table.Sound

theorem Keeps.trans {σ σ₁ σ' : Stores} (h : σ.Keeps σ₁) (h' : σ₁.Keeps σ') : σ.Keeps σ' := by
  intro id r hr
  obtain ⟨r₁, hr₁, hs⟩ := h id r hr
  obtain ⟨r', hr', hs'⟩ := h' id r₁ hr₁
  exact ⟨r', hr', hs.id.trans hs'.id, hs.payload.trans hs'.payload⟩

/-- A call that was met loses no record either. -/
theorem meet_shifts {σ σ' : Stores} {call : Call} {reply : Reply}
    {outcome : Flow.Outcome call.Answer} {eff : Effect} (hs : σ.table.Sound)
    (h : σ.meet call reply = some (outcome, eff, σ')) : σ.Shifts σ' := by
  cases outcome with
  | value a =>
    have hc := (meet_change hs h).1
    exact ⟨hc.keeps, hc.sound hs⟩
  | panic message =>
    obtain ⟨-, rfl⟩ := meet_panic h
    exact ⟨.refl _, hs⟩

end Stores

namespace Flow

/-- A way of the flow through the stores: the calls that were met, what came of the flow, and what is
left of the stores. -/
inductive Runs {α : Type} :
    Flow Call Call.Answer α → Stores → List Met → Outcome α → Stores → Prop
  | done {a : α} {σ : Stores} : Runs (.done a) σ [] (.value a) σ
  | panic {message : String} {σ : Stores} : Runs (.panic message) σ [] (.panic message) σ
  | note {e : Log.Event} {rest : Flow Call Call.Answer α} {σ σ' : Stores} {mets : List Met}
      {outcome : Outcome α} (later : Runs rest σ mets outcome σ') :
      Runs (.note e rest) σ mets outcome σ'
  | ask {call : Call} {next : call.Answer → Flow Call Call.Answer α} {reply : Reply}
      {a : call.Answer} {eff : Effect} {σ σ₁ σ₂ σ' : Stores} {mets : List Met} {outcome : Outcome α}
      (others : σ.Shifts σ₁) (met : σ₁.meet call reply = some (.value a, eff, σ₂))
      (later : Runs (next a) σ₂ mets outcome σ') :
      Runs (.ask call next) σ (⟨call, reply, .value a, eff⟩ :: mets) outcome σ'
  | broke {call : Call} {next : call.Answer → Flow Call Call.Answer α} {reply : Reply}
      {message : String} {eff : Effect} {σ σ₁ σ₂ : Stores} (others : σ.Shifts σ₁)
      (met : σ₁.meet call reply = some (.panic message, eff, σ₂)) :
      Runs (.ask call next) σ [⟨call, reply, .panic message, eff⟩] (.panic message) σ₂

variable {σ σ' : Stores} {mets : List Met}

/-- Records that were there before are there after. -/
theorem Runs.shifts {x : Flow Call Call.Answer α} {outcome : Outcome α}
    (h : x.Runs σ mets outcome σ') (hs : σ.table.Sound) : σ.Shifts σ' := by
  induction h with
  | done | panic => exact ⟨.refl _, hs⟩
  | note _ ih => exact ih hs
  | ask others met _ ih =>
    have hm := Stores.meet_shifts others.sound met
    have hl := ih hm.sound
    exact ⟨others.keeps.trans (hm.keeps.trans hl.keeps), hl.sound⟩
  | broke others met =>
    have hm := Stores.meet_shifts others.sound met
    exact ⟨others.keeps.trans hm.keeps, hm.sound⟩

/-- Every call was met by sound stores that lost no record from then on. -/
theorem Runs.met {x : Flow Call Call.Answer α} {outcome : Outcome α}
    (h : x.Runs σ mets outcome σ') : ∀ m ∈ mets, ∃ σ₁ σ₂ : Stores, σ₁.table.Sound ∧
      σ₁.meet m.call m.reply = some (m.outcome, m.effect, σ₂) ∧ σ₁.Shifts σ₂ ∧ σ₂.Shifts σ' := by
  induction h with
  | done | panic => simp
  | note _ ih => exact ih
  | ask others met later ih =>
    intro m hm
    rcases List.mem_cons.mp hm with rfl | hm
    · have hshift := Stores.meet_shifts others.sound met
      exact ⟨_, _, others.sound, met, hshift, later.shifts hshift.sound⟩
    · exact ih m hm
  | broke others met =>
    intro m hm
    cases List.mem_singleton.mp hm
    have hshift := Stores.meet_shifts others.sound met
    exact ⟨_, _, others.sound, met, hshift, ⟨.refl _, hshift.sound⟩⟩

/-- A flow that keeps to its terms does so on every way. -/
theorem Under.runs {t : Terms} {x : Flow Call Call.Answer α} {post : α → Prop} {outcome : Outcome α}
    (hx : x.Under t post) (h : x.Runs σ mets outcome σ')
    (ht : ∀ m ∈ mets, ∀ a, m.outcome = .value a → t.trust m.call a) :
    (∀ m ∈ mets, t.may m.call) ∧ ∀ a, outcome = .value a → post a := by
  induction h with
  | done =>
    refine ⟨by simp, fun a ha => ?_⟩
    cases ha
    exact hx
  | panic => exact ⟨by simp, by simp⟩
  | note _ ih => exact ih hx ht
  | ask _ _ _ ih =>
    obtain ⟨hfirst, hrest⟩ := List.forall_mem_cons.mp ht
    obtain ⟨hmay, hpost⟩ := ih (hx.2 _ (hfirst _ rfl)) hrest
    exact ⟨List.forall_mem_cons.mpr ⟨hx.1, hmay⟩, hpost⟩
  | broke => exact ⟨by simpa using hx.1, by simp⟩

/-- What two flows in sequence do. -/
theorem runs_bind {x : Flow Call Call.Answer β} {f : β → Flow Call Call.Answer α}
    {outcome : Outcome α} (h : (x >>= f).Runs σ mets outcome σ') :
    (∃ message, x.Runs σ mets (.panic message) σ' ∧ outcome = .panic message) ∨
    ∃ b σ₁ before after, mets = before ++ after ∧ x.Runs σ before (.value b) σ₁ ∧
      (f b).Runs σ₁ after outcome σ' := by
  induction x generalizing σ mets with
  | done b => exact .inr ⟨b, σ, [], mets, rfl, .done, h⟩
  | panic message =>
    cases h
    exact .inl ⟨message, .panic, rfl⟩
  | note e rest ih =>
    cases h with
    | note later =>
      rcases ih later with ⟨message, hr, ho⟩ | ⟨b, σ₁, before, after, hm, hr, hf⟩
      · exact .inl ⟨message, .note hr, ho⟩
      · exact .inr ⟨b, σ₁, before, after, hm, .note hr, hf⟩
  | ask q next ih =>
    cases h with
    | ask others met later =>
      rcases ih _ later with ⟨message, hr, ho⟩ | ⟨b, σ₁, before, after, hm, hr, hf⟩
      · exact .inl ⟨message, .ask others met hr, ho⟩
      · exact .inr ⟨b, σ₁, _ :: before, after, by rw [hm, List.cons_append], .ask others met hr, hf⟩
    | broke others met => exact .inl ⟨_, .broke others met, rfl⟩

/-- Replies that answer all calls, with nobody else around. -/
theorem runs_of_outcome {x : Flow Call Call.Answer α} {replies : List Reply} {a : α}
    {calls : List Call} (h : x.outcome replies σ = some (a, calls, σ')) (hs : σ.table.Sound) :
    ∃ mets, x.Runs σ mets (.value a) σ' ∧ mets.map (·.call) = calls ∧
      mets.map (·.reply) = replies := by
  induction x generalizing replies σ calls with
  | done b =>
    cases replies with
    | nil =>
      cases h
      exact ⟨[], .done, rfl, rfl⟩
    | cons => cases h
  | panic => cases h
  | note e rest ih =>
    obtain ⟨mets, hr, hc, hp⟩ := ih h hs
    exact ⟨mets, .note hr, hc, hp⟩
  | ask call next ih =>
    cases replies with
    | nil => cases h
    | cons reply replies =>
      rw [outcome] at h
      split at h
      next answer eff σ₁ hm =>
        obtain ⟨⟨b, calls', σ₂⟩, hl, he⟩ := Option.map_eq_some_iff.mp h
        cases he
        have hshift := Stores.meet_shifts hs hm
        obtain ⟨mets, hr, hc, hp⟩ := ih _ hl hshift.sound
        exact ⟨_ :: mets, .ask ⟨.refl σ, hs⟩ hm hr, by simp [hc], by simp [hp]⟩
      next => cases h

end Flow

/-- What two programs in sequence do. -/
theorem Program.runs_bind {σ σ' : Stores} {mets : List Met} {p : Program ε β} {f : β → Program ε α}
    {e : ε} (h : (p >>= f).run.Runs σ mets (.value (.error e)) σ') :
    p.run.Runs σ mets (.value (.error e)) σ' ∨
    ∃ b σ₁ before after, mets = before ++ after ∧ p.run.Runs σ before (.value (.ok b)) σ₁ ∧
      (f b).run.Runs σ₁ after (.value (.error e)) σ' := by
  rcases Flow.runs_bind (f := ExceptT.bindCont f) h with
    ⟨message, -, ho⟩ | ⟨r, σ₁, before, after, hm, hp, hf⟩
  · cases ho
  cases r with
  | ok b => exact .inr ⟨b, σ₁, before, after, hm, hp, hf⟩
  | error e' =>
    cases hf
    rw [hm, List.append_nil]
    exact .inl hp

end Settlement
