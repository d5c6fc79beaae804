import Settlement.Proofs.Overruns

/-!
The cutoff of a sweep. A timeout that is no duration is reported; one that is, but leads out of the
calendar, breaks the sweep off. Main statement: which of the two becomes of a timeout, and what else a
sweep can break off at.
-/

namespace Settlement

namespace Service

open Program Fallible

section

variable {s : Service} {settings : SweepSettings} {σ σ' : Stores} {mets : List Met}

/-- A calm program breaks off exactly if one of its calls does. -/
theorem Calm.broken_iff {p : Program ε α} {outcome : Flow.Outcome (Except ε α)} (hp : Calm p {})
    (h : p.run.Runs σ mets outcome σ') :
    (∃ message, outcome = .panic message) ↔ ∃ m ∈ mets, σ'.BreaksOff m := by
  constructor
  · rintro ⟨message, rfl⟩
    by_contra hnone
    have hwhole : ∀ m ∈ mets, ∀ text, m.outcome ≠ .panic text := by
      intro m hm text ht
      exact hnone ⟨m, hm, Stores.breaksOff_of_panic (h.broken hm ht).2 ht⟩
    exact h.tells hwhole hp
  · rintro ⟨m, hm, hb⟩
    obtain ⟨message, ht⟩ := hb.panics
    exact (h.broken hm ht).1

/-- The clock always answers. -/
theorem runs_clock {next : Instant → Flow Call Call.Answer α} {outcome : Flow.Outcome α}
    (h : (Flow.ask .now next).Runs σ mets outcome σ') : ∃ reply now rest σ₁,
      mets = ⟨.now, reply, .value now, .nothing⟩ :: rest ∧ (next now).Runs σ₁ rest outcome σ' := by
  cases h with
  | ask _ met later =>
    rcases Stores.meet_cases met with ⟨rfl, -⟩ | ⟨_, _, hc, -⟩
    · exact ⟨_, _, _, _, rfl, later⟩
    · cases hc
  | broke _ met =>
    rcases Stores.meet_cases met with ⟨-, -, _, hv, -⟩ | ⟨_, _, hc, -⟩
    · cases hv
    · cases hc

/-- A sweep with a cutoff asks for the records that are older, first of all. -/
theorem sweepSince_selects {cutoff : Instant} {outcome : Flow.Outcome (Except ServiceError SweepReport)}
    (h : (sweepSince s settings cutoff).run.Runs σ mets outcome σ') :
    mets.head?.map Met.call = some (.store (.findStuck cutoff settings.batchSize)) := by
  unfold sweepSince at h
  cases h with
  | ask => rfl
  | broke => rfl

/-- A timeout as long as the calendar leads out of it from every instant. -/
theorem early_of_long {now : Instant} {timeoutSecs : Nat} (hn : now ≤ Instant.last)
    (ht : 16544868105600 ≤ timeoutSecs) : now - timeoutSecs * 1000000 < Instant.first := by
  have harith (n t : Int) (hn : n ≤ 8209320191999999999) (ht : 16544868105600 ≤ t) :
      n - t * 1000000 < -8335547913600000000 := by omega
  exact harith now timeoutSecs hn (Int.ofNat_le.mpr ht)

/-- What becomes of a sweep. A timeout of more than 64 bits of milliseconds is reported, and nothing is
asked. Otherwise the clock is read: if the timeout leads out of the calendar, the sweep breaks off there
and then, which it does by every clock if the timeout is as long as the calendar; if not, it selects
the records before the cutoff and returns, unless one of its calls finds a sum that is too wide. -/
theorem sweep_ends {outcome : Flow.Outcome (Except ServiceError SweepReport)}
    (h : (sweep s settings).run.Runs σ mets outcome σ') :
    (maxInt64 < settings.processingTimeoutSecs * 1000 → mets = [] ∧ σ' = σ ∧
      outcome = .value (.error (.internal
        "Invalid processing timeout: Source duration value is out of range for the target type"))) ∧
    (settings.processingTimeoutSecs * 1000 ≤ maxInt64 → ∃ reply now rest,
      mets = ⟨.now, reply, .value now, .nothing⟩ :: rest ∧
      (now - settings.processingTimeoutSecs * 1000000 < Instant.first →
        rest = [] ∧ outcome = .panic "`DateTime - TimeDelta` overflowed") ∧
      (now ≤ Instant.last → 16544868105600 ≤ settings.processingTimeoutSecs →
        now - settings.processingTimeoutSecs * 1000000 < Instant.first) ∧
      (Instant.first ≤ now - settings.processingTimeoutSecs * 1000000 →
        rest.head?.map Met.call = some (.store (.findStuck
          (now - settings.processingTimeoutSecs * 1000000) settings.batchSize)) ∧
        ((∃ message, outcome = .panic message) ↔ ∃ m ∈ rest, σ'.BreaksOff m))) := by
  unfold sweep at h
  unfold cutoff at h
  split at h
  next hlong =>
    cases h
    exact ⟨fun _ => ⟨rfl, rfl, rfl⟩, fun hshort => absurd hshort (Int.not_le.mpr hlong)⟩
  next hshort =>
    refine ⟨fun hlong => absurd hlong hshort, fun _ => ?_⟩
    obtain ⟨reply, read, rest, σ₁, rfl, hlater⟩ := runs_clock h
    let back := read - settings.processingTimeoutSecs * 1000000
    have hback : ((if back < Instant.first then breakOff "`DateTime - TimeDelta` overflowed"
        else pure back : Program ServiceError Instant) >>= sweepSince s settings).run.Runs
          σ₁ rest outcome σ' := hlater
    refine ⟨reply, read, rest, rfl, ?_, ?_, ?_⟩
    · intro hearly
      rw [if_pos hearly] at hback
      cases hback
      exact ⟨rfl, rfl⟩
    · exact early_of_long
    · intro hinside
      rw [if_neg (Int.not_lt.mpr hinside)] at hback
      have hsince : (sweepSince s settings back).run.Runs σ₁ rest outcome σ' := hback
      exact ⟨sweepSince_selects hsince, sweepSince_calm.broken_iff hsince⟩

end

/-- On empty stores at the start of the year 2000, with the timeout that leads to the first instant of
the calendar: nothing is found. -/
theorem sweep_ends_firstInstant : ∃ reply now rest σ',
    (sweep plainService ⟨1000, 8335547913600, 100⟩).run.Runs {}
      (⟨.now, reply, .value now, .nothing⟩ :: rest) (.value (.ok {})) σ' ∧
    rest.head?.map Met.call = some (.store (.findStuck (now - 8335547913600 * 1000000) 100)) ∧
    ¬∃ m ∈ rest, σ'.BreaksOff m := by
  obtain ⟨⟨result, calls, σ'⟩, houtcome, rfl⟩ := Option.map_eq_some_iff.mp (show
    ((sweep plainService ⟨1000, 8335547913600, 100⟩).run.outcome
      [.elsewhere .now (0 : Int), .served 0] {}).map (·.1) = some (.ok {}) by decide +kernel)
  obtain ⟨mets, hruns, -⟩ := Flow.runs_of_outcome houtcome TransactionTable.sound_empty
  obtain ⟨reply, now, rest, rfl, hearly, -, hinside⟩ := (sweep_ends hruns).2 (by decide)
  -- A sweep that returned did not break off, so its cutoff is in the calendar.
  have hback : Instant.first ≤ now - 8335547913600 * 1000000 := by
    apply Int.not_lt.mp
    intro hback
    have hbroken := (hearly hback).2
    contradiction
  obtain ⟨hselects, hbroken⟩ := hinside hback
  refine ⟨reply, now, rest, σ', hruns, hselects, ?_⟩
  rw [← hbroken]
  simp

/-- A duration of about 317000 years passes for a timeout, and the sweep breaks off, though there is
nothing to recover. -/
theorem broken_of_ancientCutoff : ∃ mets σ',
    (sweep plainService ⟨1000, 10000000000000, 100⟩).run.Runs {} mets
      (.panic "`DateTime - TimeDelta` overflowed") σ' := by
  obtain ⟨⟨message, σ'⟩, hbreaks, rfl⟩ := Option.map_eq_some_iff.mp (show
    ((sweep plainService ⟨1000, 10000000000000, 100⟩).run.breaksWith
      [.elsewhere .now (0 : Int)] {}).map (·.1) = some "`DateTime - TimeDelta` overflowed" by
    decide +kernel)
  obtain ⟨mets, hruns, -⟩ := Flow.runs_of_breaksWith hbreaks TransactionTable.sound_empty
  exact ⟨mets, σ', hruns⟩

end Service

end Settlement
