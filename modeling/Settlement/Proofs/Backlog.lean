import Mathlib.Data.List.Perm.Subperm
import Settlement.Proofs.Machine
import Settlement.Proofs.Recoveries
import Settlement.Proofs.Waiting

/-!
Sweeps one after the other, over a store that never fails and under a clock that never stands still.
Main statement: none of them passes over a record that waited when the first one started, however often
records are put off. What a sweep touches goes behind all that waited then.
-/

namespace Settlement

def Call.locked : (call : Call) → call.Answer → Bool
  | .ledger (.getAccount _), .error (.lockConflict _) => true
  | .ledger (.mutate ..), .error (.lockConflict _) => true
  | _, _ => false

@[simp] theorem Write.apply_updatedAt (now : Instant) (w : Write) (r : TransactionRecord) :
    (w.apply now r).updatedAt = now := by
  cases w <;> rfl

structure Clocked where
  table : TransactionTable
  read : Instant

namespace Clocked

/-- The store never fails, and each reading of the clock is greater than the one before. What the
ledger and all others answer is open. -/
def ticks : Surroundings Call.Answer Clocked
  | .now, c, now, c' => c.read < now ∧ c' = { c with read := now }
  | .store call, c, a, c' => ∃ now, TransactionTable.answer now call c.table = (.value a, c'.table) ∧
    if Call.writes (.store call) then c.read < now ∧ c'.read = now else c'.read = c.read
  | _, c, _, c' => c' = c

structure Fit (c : Clocked) : Prop where
  sound : c.table.Sound
  ahead : ∀ r ∈ c.table.rows, r.updatedAt ≤ c.read

/-- A row stays as it is, or it was open and is touched at a later reading. -/
structure Onward (c c' : Clocked) : Prop where
  fit : c'.Fit
  read : c.read ≤ c'.read
  touched : ∀ id r, c.table.row? id = some r → ∃ r', c'.table.row? id = some r' ∧
    (r' = r ∨ (r.status.isTerminal = false ∧ c.read < r'.updatedAt))

structure Within (ids : List TransactionId) (c c' : Clocked) : Prop extends Onward c c' where
  others : ∀ id, id ∉ ids → c'.table.row? id = c.table.row? id

section

variable {c c₁ c' : Clocked} {id : TransactionId} {ids : List TransactionId} {w : Write} {now : Instant}
  {r : TransactionRecord}

theorem Onward.trans (h : c.Onward c₁) (h' : c₁.Onward c') : c.Onward c' where
  fit := h'.fit
  read := Int.le_trans h.read h'.read
  touched := by
    intro id r hr
    obtain ⟨r₁, hr₁, h₁⟩ := h.touched id r hr
    obtain ⟨r', hr', h₂⟩ := h'.touched id r₁ hr₁
    refine ⟨r', hr', ?_⟩
    obtain rfl | ⟨hopen, hlt⟩ := h₂
    · exact h₁
    · obtain rfl | ⟨hopen', -⟩ := h₁
      · exact .inr ⟨hopen, Int.lt_of_le_of_lt h.read hlt⟩
      · exact .inr ⟨hopen', Int.lt_of_le_of_lt h.read hlt⟩

theorem Within.trans (h : c.Within ids c₁) (h' : c₁.Within ids c') : c.Within ids c' :=
  ⟨h.toOnward.trans h'.toOnward, fun id hid => (h'.others id hid).trans (h.others id hid)⟩

theorem Within.mono {ids' : List TransactionId} (h : c.Within ids c') (hi : ids ⊆ ids') :
    c.Within ids' c' :=
  ⟨h.toOnward, fun id hid => h.others id fun hm => hid (hi hm)⟩

/-- Time passes. -/
theorem Fit.within (hf : c.Fit) (ids : List TransactionId) (ht : c'.table = c.table)
    (hle : c.read ≤ c'.read) : c.Within ids c' where
  fit := ⟨ht ▸ hf.sound, fun r hr => Int.le_trans (hf.ahead r (ht ▸ hr)) hle⟩
  read := hle
  touched := fun id r hr => ⟨r, ht ▸ hr, .inl rfl⟩
  others := fun id _ => by rw [ht]

/-- An open row that stays terminal or untouched. -/
theorem Onward.terminal (h : c.Onward c') (hr : c.table.row? id = some r)
    (ht : r.status.isTerminal = true) : c'.table.row? id = some r := by
  obtain ⟨r', hr', rfl | ⟨hopen, -⟩⟩ := h.touched id r hr
  · exact hr'
  · rw [ht] at hopen
    cases hopen

/-- What a conditional write of a row does that exists. -/
theorem Fit.wrote (hf : c.Fit) (hr : c.table.row? id = some r) (hlt : c.read < c'.read)
    {a : Except ServiceError Bool}
    (h : (Flow.Outcome.value (.ok (c.table.update id w.allows (w.apply c'.read)).1),
      (c.table.update id w.allows (w.apply c'.read)).2) = (.value a, c'.table)) :
    c.Within [id] c' ∧
      (w.allows r = true → a = .ok true ∧ c'.table.row? id = some (w.apply c'.read r)) ∧
      (w.allows r = false → a = .ok false ∧ c'.table.row? id = some r) := by
  obtain ⟨ha, ht⟩ := Prod.mk.inj h
  cases hallows : w.allows r with
  | false =>
    rw [TransactionTable.update_barred hr hallows] at ha ht
    refine ⟨hf.within [id] ht.symm (Int.le_of_lt hlt), by simp, fun _ => ?_⟩
    exact ⟨(Flow.Outcome.value.inj ha).symm, ht ▸ hr⟩
  | true =>
    obtain ⟨hdone, hrow⟩ := TransactionTable.update_allowed hr hallows c'.read
    have hwritten := c.table.update_written id w c'.read
    rw [hdone] at ha
    rw [ht] at hrow hwritten
    have hs := hf.sound.write hwritten
    refine ⟨⟨⟨⟨hs, fun q hq => ?_⟩, Int.le_of_lt hlt, fun other q hq => ?_⟩, fun other hne => ?_⟩,
      fun _ => ⟨(Flow.Outcome.value.inj ha).symm, hrow⟩, by simp⟩
    · have hq' := hs.row?_of_mem hq
      by_cases hid : q.id = id
      · rw [hid, hrow] at hq'
        cases hq'
        rw [Write.apply_updatedAt]
      · rw [hwritten.row?_ne hid] at hq'
        exact Int.le_trans (hf.ahead q (TransactionTable.mem_of_row? hq').1) (Int.le_of_lt hlt)
    · by_cases hid : other = id
      · subst hid
        cases hr.symm.trans hq
        exact ⟨_, hrow, .inr ⟨Write.open_of_allows hallows, by rwa [Write.apply_updatedAt]⟩⟩
      · exact ⟨q, by rw [hwritten.row?_ne hid, hq], .inl rfl⟩
    · exact hwritten.row?_ne fun heq => hne (heq ▸ List.mem_singleton_self _)

theorem finds_ticks : Service.Finds ticks := by
  rintro id tx c c' ⟨now, ha, -⟩
  have hrow : c.table.row? id = some tx := Except.ok.inj (Flow.Outcome.value.inj (congrArg Prod.fst ha))
  exact (TransactionTable.mem_of_row? hrow).2

def Taken (c : Clocked) (id : TransactionId) (c' : Clocked) : Prop :=
  c.Within [id] c' ∧
    ∃ r', c'.table.row? id = some r' ∧ r'.status = .processing ∧ c.read < r'.updatedAt

def Closed (c : Clocked) (id : TransactionId) (c' : Clocked) : Prop :=
  c.Within [id] c' ∧ ∃ r', c'.table.row? id = some r' ∧ r'.status.isTerminal = true

theorem recoverable_ticks (c : Clocked) (id : TransactionId) :
    Service.Recoverable (Flow.tracing ticks) id (fun y => c.Taken id y.1)
      (fun y => ∃ v ∈ y.2, v.question.locked v.answer = true) (fun y => c.Closed id y.1)
      fun _ => False where
  leg := by
    rintro y direction account amount phase hy a c' rfl
    refine ⟨hy, fun e he hr => ⟨_, List.mem_append_right _ (List.mem_singleton_self _), ?_⟩⟩
    subst he
    cases e with
    | lockConflict => rfl
    | _ => cases hr
  advance := by
    rintro y step ⟨hw, r, hr, hp, hlt⟩ a c' ⟨now, ha, hlater, rfl⟩
    obtain ⟨hw', hdone, hbarred⟩ := hw.fit.wrote (w := .advance step) hr hlater ha
    have hread := Int.lt_of_le_of_lt hw.read hlater
    cases hallows : (Write.advance step).allows r with
    | true =>
      obtain ⟨rfl, hrow⟩ := hdone hallows
      exact ⟨⟨hw.trans hw', _, hrow, hp, hread⟩, fun e he => by cases he⟩
    | false =>
      obtain ⟨rfl, hrow⟩ := hbarred hallows
      exact ⟨⟨hw.trans hw', r, hrow, hp, hlt⟩, fun e he => by cases he⟩
  found := by
    rintro y ⟨hw, r, hr, hp, hlt⟩ a c' ⟨now, ha, hread⟩
    have hloaded : Except.ok (y.1.table.row? id) = a := Flow.Outcome.value.inj (congrArg Prod.fst ha)
    have ht : y.1.table = c'.table := congrArg Prod.snd ha
    rw [hr] at hloaded
    subst hloaded
    refine ⟨fun tx htx => ?_, fun hn => hn r rfl⟩
    cases htx
    exact ⟨(TransactionTable.mem_of_row? hr).2,
      hw.trans (hw.fit.within [id] ht.symm (Int.le_of_eq hread.symm)), r, ht ▸ hr, hp, hlt⟩
  ends := by
    rintro y fin hfin ⟨hw, r, hr, hp, hlt⟩ a c' ⟨now, ha, hlater, rfl⟩
    obtain ⟨hw', hdone, -⟩ := hw.fit.wrote (w := .close fin) hr hlater ha
    obtain ⟨rfl, hrow⟩ := hdone (by simp [Write.allows, hp, TransactionStatus.isTerminal])
    exact ⟨fun _ _ => ⟨hw.trans hw', _, hrow, hfin.terminal⟩, fun e he => by cases he⟩

section

variable {s : Service} {vs : List (Visit Call.Answer Clocked)} {cut : Instant}
  {results : List (TransactionId × RecoveryResult)}

/-- Where a recovery leaves a record: terminal, or touched after the cutoff since an account was
locked. -/
def Handled (cut : Instant) (vs : List (Visit Call.Answer Clocked)) (c' : Clocked)
    (id : TransactionId) : Prop :=
  ∃ r', c'.table.row? id = some r' ∧ (r'.status.isTerminal = true ∨
    (cut ≤ r'.updatedAt ∧ ∃ v ∈ vs, v.question.locked v.answer = true))

theorem recover_handles {result : RecoveryResult} (hf : c.Fit) (hr : c.table.row? id = some r)
    (hcut : cut ≤ c.read) (h : (s.recover id).run.Goes ticks c vs (.value result) c') :
    c.Within [id] c' ∧ Handled cut vs c' id := by
  have hc := h.closes (Service.recover_reports (fun y => c.Closed id y.1) (recoverable_ticks c id) ?_)
  · have hclosed : c.Closed id c' → c.Within [id] c' ∧ Handled cut vs c' id :=
      fun ⟨hw, r', hr', ht⟩ => ⟨hw, r', hr', .inl ht⟩
    rcases result with e | outcome
    · exact hc.elim
    · cases outcome with
      | completed => exact hclosed (hc.closed (.inl rfl))
      | failed => exact hclosed (hc.closed (.inr rfl))
      | skipped => exact hclosed (hc.skipped rfl)
      | deferred =>
        obtain ⟨⟨hw, r', hr', -, hlt⟩, hlocked⟩ := hc.deferred rfl
        exact ⟨hw, r', hr', .inr ⟨Int.le_trans hcut (Int.le_of_lt hlt), hlocked⟩⟩
  · rintro a c₁ ⟨now, ha, hlater, rfl⟩
    obtain ⟨hw, hdone, hbarred⟩ := hf.wrote (w := .take) hr hlater ha
    cases hallows : Write.take.allows r with
    | true =>
      obtain ⟨rfl, hrow⟩ := hdone hallows
      exact ⟨fun _ => ⟨hw, _, hrow, rfl, hlater⟩, by simp, by simp⟩
    | false =>
      obtain ⟨rfl, hrow⟩ := hbarred hallows
      refine ⟨by simp, fun _ => ⟨hw, r, hrow, ?_⟩, by simp⟩
      simpa [Write.allows] using hallows

/-- A row that was handled stays so. -/
theorem Handled.onward {later : List (Visit Call.Answer Clocked)} (h : Handled cut vs c id)
    (ho : c.Onward c') (hcut : cut ≤ c.read) : Handled cut (vs ++ later) c' id := by
  obtain ⟨r, hr, ht | ⟨hle, v, hv, hl⟩⟩ := h
  · exact ⟨r, ho.terminal hr ht, .inl ht⟩
  · obtain ⟨r', hr', hkept⟩ := ho.touched id r hr
    refine ⟨r', hr', .inr ⟨?_, v, List.mem_append_left _ hv, hl⟩⟩
    obtain rfl | ⟨-, hlt⟩ := hkept
    · exact hle
    · exact Int.le_trans hcut (Int.le_of_lt hlt)

theorem Handled.mono (h : Handled cut vs c id) (earlier : List (Visit Call.Answer Clocked)) :
    Handled cut (earlier ++ vs) c id := by
  obtain ⟨r, hr, ht | ⟨hle, v, hv, hl⟩⟩ := h
  · exact ⟨r, hr, .inl ht⟩
  · exact ⟨r, hr, .inr ⟨hle, v, List.mem_append_right _ hv, hl⟩⟩

theorem recovers_handle (h : Service.Recovers ticks s results c vs c') (hf : c.Fit)
    (hrow : ∀ id ∈ results.map (·.1), ∃ r, c.table.row? id = some r) (hcut : cut ≤ c.read) :
    c.Within (results.map (·.1)) c' ∧ ∀ id ∈ results.map (·.1), Handled cut vs c' id := by
  induction h with
  | nil => exact ⟨hf.within _ rfl (Int.le_refl _), by simp⟩
  | @cons id result results c c₁ c' vs rest first later ih =>
    obtain ⟨⟨r, hr⟩, hrow⟩ := List.forall_mem_cons.mp hrow
    obtain ⟨hw, hhandled⟩ := recover_handles hf hr hcut first
    have hcut₁ := Int.le_trans hcut hw.read
    have hrow₁ : ∀ id ∈ results.map (·.1), ∃ r, c₁.table.row? id = some r := by
      intro other hother
      obtain ⟨q, hq⟩ := hrow other hother
      obtain ⟨q', hq', -⟩ := hw.touched other q hq
      exact ⟨q', hq'⟩
    obtain ⟨hw', hrest⟩ := ih hw.fit hrow₁ hcut₁
    refine ⟨(hw.mono (by simp)).trans (hw'.mono (by simp)), List.forall_mem_cons.mpr ⟨?_, ?_⟩⟩
    · exact hhandled.onward hw'.toOnward hcut₁
    · exact fun other hother => (hrest other hother).mono _

def Called (s : Service) (vs : List (Visit Call.Answer Clocked)) (id : TransactionId) : Prop :=
  ∃ part c result c', part <:+: vs ∧ (s.recover id).run.Goes ticks c part (.value result) c'

/-- A sweep with a cutoff that is not before the given one recovers all records that wait since then, or
as many of them as it may. -/
theorem sweep_handles {settings : SweepSettings}
    {outcome : Flow.Outcome (Except ServiceError SweepReport)} (hf : c.Fit)
    (hlong : settings.processingTimeoutSecs * 1000 ≤ maxInt64) (hfirst : Instant.first ≤ cut)
    (hcut : ∀ now, c.read < now → vs.head? = some ⟨c, .now, now⟩ →
      cut ≤ now - settings.processingTimeoutSecs * 1000000)
    (h : (s.sweep settings).run.Goes ticks c vs outcome c') :
    cut + settings.processingTimeoutSecs * 1000000 ≤ c'.read ∧
      ∃ ids, c.Within ids c' ∧ (∀ id ∈ ids, Called s vs id ∧ Handled cut vs c' id) ∧
        ((∀ r ∈ c.table.waiting cut, r.id ∈ ids) ∨
          (ids.length = settings.batchSize ∧ ids.Nodup ∧
            ids ⊆ (c.table.waiting cut).map (·.id))) := by
  cases Service.sweeps_of_goes finds_ticks h with
  | timeless hover => exact absurd hlong (Int.not_le.mpr hover)
  | early read before =>
    have hle := hcut _ read.1 rfl
    exact absurd (Int.le_trans hfirst hle) (Int.not_le.mpr before)
  | unselected read select =>
    obtain ⟨now, ha, -⟩ := select
    cases Flow.Outcome.value.inj (congrArg Prod.fst ha)
  | @selected now _ c₁ c₂ _ stuck results rest back read select recovers ids =>
    subst back
    have hle := hcut now read.1 rfl
    obtain ⟨hlt, rfl⟩ := read
    obtain ⟨_, ha, hread⟩ := select
    have hread : c₂.read = now := hread
    have ht : c.table = c₂.table := congrArg Prod.snd ha
    have hstuck : c.table.findStuck (now - settings.processingTimeoutSecs * 1000000)
        settings.batchSize = stuck :=
      Except.ok.inj (Flow.Outcome.value.inj (congrArg Prod.fst ha))
    have hw := hf.within (results.map (·.1)) ht.symm (hread ▸ Int.le_of_lt hlt)
    have htimeout : (0 : Int) ≤ settings.processingTimeoutSecs * 1000000 :=
      Int.mul_nonneg (Int.natCast_nonneg _) (by decide)
    have hcut₂ : cut ≤ c₂.read := hread ▸ Int.le_trans hle (Int.sub_le_self now htimeout)
    have hrow : ∀ id ∈ results.map (·.1), ∃ r, c₂.table.row? id = some r := by
      rw [ids, ← hstuck, List.forall_mem_map]
      intro r hr
      have hmem := (TransactionTable.mem_waiting.mp (TransactionTable.mem_findStuck hr)).1
      exact ⟨r, ht ▸ hf.sound.row?_of_mem hmem⟩
    obtain ⟨hw', hhandled⟩ := recovers_handle recovers hw.fit hrow hcut₂
    refine ⟨Int.le_trans (Int.add_le_of_le_sub_right hle) (hread ▸ hw'.read), results.map (·.1),
      hw.trans hw', fun id hid => ⟨?_, ?_⟩, ?_⟩
    · obtain ⟨part, y, result, y', hpart, hgoes⟩ := recovers.part id hid
      exact ⟨part, y, result, y', hpart.trans (List.suffix_append [_, _] rest).isInfix, hgoes⟩
    · exact (hhandled id hid).mono [_, _]
    · rw [ids, ← hstuck]
      obtain hall | ⟨hfull, hold⟩ :=
        TransactionTable.findStuck_oldest (t := c.table) hle settings.batchSize
      · exact .inl fun r hr => List.mem_map_of_mem (hall r hr)
      · refine .inr ⟨by rw [List.length_map, hfull], hf.sound.findStuck_ids _ _, ?_⟩
        exact List.map_subset _ hold

/-- What was handled does not wait any more, and nothing else has begun to. -/
theorem waiting_of_handled (hw : c.Within ids c')
    (hh : ∀ id ∈ ids, Handled cut vs c' id) :
    ∀ r ∈ c'.table.waiting cut, r ∈ c.table.waiting cut ∧ r.id ∉ ids := by
  intro r hr
  obtain ⟨hrow, hopen, hlt⟩ := TransactionTable.mem_waiting.mp hr
  have hr' := hw.fit.sound.row?_of_mem hrow
  have hid : r.id ∉ ids := by
    intro hid
    obtain ⟨q, hq, ht | ⟨hle, -⟩⟩ := hh r.id hid
    · cases hr'.symm.trans hq
      rw [hopen] at ht
      cases ht
    · cases hr'.symm.trans hq
      exact absurd hlt (Int.not_lt.mpr hle)
  rw [hw.others r.id hid] at hr'
  have hmem := (TransactionTable.mem_of_row? hr').1
  exact ⟨TransactionTable.mem_waiting.mpr ⟨hmem, hopen, hlt⟩, hid⟩

theorem waiting_shrinks (hw : c.Within ids c') (hh : ∀ id ∈ ids, Handled cut vs c' id) (hn : ids.Nodup)
    (hi : ids ⊆ (c.table.waiting cut).map (·.id)) :
    (c'.table.waiting cut).length + ids.length ≤ (c.table.waiting cut).length := by
  have hleft := waiting_of_handled hw hh
  have hnodup : ((c'.table.waiting cut).map (·.id) ++ ids).Nodup := by
    refine List.nodup_append'.mpr ⟨hw.fit.sound.waiting_ids cut, hn, fun id hid => ?_⟩
    obtain ⟨r, hr, rfl⟩ := List.mem_map.mp hid
    exact (hleft r hr).2
  have hsub : (c'.table.waiting cut).map (·.id) ++ ids ⊆ (c.table.waiting cut).map (·.id) := by
    refine List.append_subset.mpr ⟨fun id hid => ?_, hi⟩
    obtain ⟨r, hr, rfl⟩ := List.mem_map.mp hid
    exact List.mem_map_of_mem (hleft r hr).1
  simpa using (List.subperm_of_subset hnodup hsub).length_le

end

inductive Sweeping (s : Service) (settings : SweepSettings) :
    Clocked → List (List (Visit Call.Answer Clocked)) → Clocked → Prop
  | nil {c : Clocked} : Sweeping s settings c [] c
  | cons {c c₁ c' : Clocked} {vs : List (Visit Call.Answer Clocked)}
      {later : List (List (Visit Call.Answer Clocked))}
      {outcome : Flow.Outcome (Except ServiceError SweepReport)}
      (first : (s.sweep settings).run.Goes ticks c vs outcome c₁)
      (rest : Sweeping s settings c₁ later c') : Sweeping s settings c (vs :: later) c'

section

variable {s : Service} {settings : SweepSettings} {sweeps : List (List (Visit Call.Answer Clocked))}
  {cut : Instant}

/-- Sweeps that may take all records that wait since some time handle all of them. -/
theorem Sweeping.handles (h : Sweeping s settings c sweeps c') (hf : c.Fit)
    (hlong : settings.processingTimeoutSecs * 1000 ≤ maxInt64) (hfirst : Instant.first ≤ cut)
    (hcut : ∀ vs now, sweeps.head? = some vs → c.read < now → vs.head? = some ⟨c, .now, now⟩ →
      cut ≤ now - settings.processingTimeoutSecs * 1000000)
    (hn : (c.table.waiting cut).length ≤ sweeps.length * settings.batchSize) :
    c.Onward c' ∧ ∀ r ∈ c.table.waiting cut,
      (∃ vs ∈ sweeps, Called s vs r.id) ∧ Handled cut sweeps.flatten c' r.id := by
  induction h with
  | nil =>
    refine ⟨(hf.within [] rfl (Int.le_refl _)).toOnward, fun r hr => ?_⟩
    have hpos := List.length_pos_of_mem hr
    simp only [List.length_nil, Nat.zero_mul] at hn
    omega
  | @cons c c₁ c' vs later outcome first rest ih =>
    obtain ⟨hread, ids, hw, hids, hcases⟩ := sweep_handles hf hlong hfirst (hcut vs · rfl) first
    have hh : ∀ id ∈ ids, Handled cut vs c₁ id := fun id hid => (hids id hid).2
    have hleft := waiting_of_handled hw hh
    -- Each sweep takes a full batch of the records off the backlog, or all that are left.
    have hn₁ : (c₁.table.waiting cut).length ≤ later.length * settings.batchSize := by
      obtain hall | ⟨hfull, hnodup, hsub⟩ := hcases
      · have hnone : c₁.table.waiting cut = [] :=
          List.eq_nil_iff_forall_not_mem.mpr fun r hr => (hleft r hr).2 (hall r (hleft r hr).1)
        simp [hnone]
      · have hshrinks := waiting_shrinks hw hh hnodup hsub
        rw [List.length_cons, Nat.add_mul, Nat.one_mul] at hn
        omega
    have hcut₁ : ∀ now, c₁.read < now → cut ≤ now - settings.processingTimeoutSecs * 1000000 :=
      fun now hlt => Int.le_sub_right_of_add_le (Int.le_trans hread (Int.le_of_lt hlt))
    obtain ⟨hlater, hrest⟩ := ih hw.fit (fun _ now _ hlt _ => hcut₁ now hlt) hn₁
    refine ⟨hw.toOnward.trans hlater, fun r hr => ?_⟩
    have htimeout : (0 : Int) ≤ settings.processingTimeoutSecs * 1000000 :=
      Int.mul_nonneg (Int.natCast_nonneg _) (by decide)
    have hcutread : cut ≤ c₁.read := Int.le_trans (Int.le_add_of_nonneg_right htimeout) hread
    by_cases hid : r.id ∈ ids
    · exact ⟨⟨vs, List.mem_cons_self, (hids _ hid).1⟩, (hh _ hid).onward hlater hcutread⟩
    · obtain ⟨hrow, hold⟩ := TransactionTable.mem_waiting.mp hr
      have hkept := hw.others r.id hid
      rw [hf.sound.row?_of_mem hrow] at hkept
      have hmem := (TransactionTable.mem_of_row? hkept).1
      obtain ⟨⟨called, hcalled, hr'⟩, hhandled⟩ :=
        hrest r (TransactionTable.mem_waiting.mpr ⟨hmem, hold⟩)
      exact ⟨⟨called, List.mem_cons_of_mem _ hcalled, hr'⟩, hhandled.mono _⟩

end

/-- Sweeps one after the other, as many as it takes for the records that wait when the first one
starts. Each of these records is recovered by one of the sweeps, whatever the ledger answers, and where
no account is locked all of them are terminal in the end. -/
theorem sweeps_starve_none {s : Service} {settings : SweepSettings}
    {sweeps : List (List (Visit Call.Answer Clocked))} (hf : c.Fit)
    (hlong : settings.processingTimeoutSecs * 1000 ≤ maxInt64)
    (hfirst : Instant.first ≤ now - settings.processingTimeoutSecs * 1000000)
    (h : Sweeping s settings c sweeps c') (hnow : sweeps.flatten.head? = some ⟨c, .now, now⟩)
    (hn : (c.table.waiting (now - settings.processingTimeoutSecs * 1000000)).length ≤
      sweeps.length * settings.batchSize) :
    ∀ r ∈ c.table.waiting (now - settings.processingTimeoutSecs * 1000000),
      (∃ vs ∈ sweeps, Called s vs r.id) ∧
        ((∀ v ∈ sweeps.flatten, v.question.locked v.answer = false) →
          ∃ r', c'.table.row? r.id = some r' ∧ r'.status.isTerminal = true) := by
  intro r hr
  have hcut : ∀ vs now', sweeps.head? = some vs → c.read < now' → vs.head? = some ⟨c, .now, now'⟩ →
      now - settings.processingTimeoutSecs * 1000000 ≤
        now' - settings.processingTimeoutSecs * 1000000 := by
    intro vs now' hvs _ hnow'
    obtain ⟨later, rfl⟩ := List.head?_eq_some_iff.mp hvs
    rw [List.flatten_cons, List.head?_append, hnow', Option.some_or] at hnow
    cases hnow
    exact Int.le_refl _
  obtain ⟨hcalled, r', hr', ht | ⟨-, v, hv, hl⟩⟩ := (h.handles hf hlong hfirst hcut hn).2 r hr
  · exact ⟨hcalled, fun _ => ⟨r', hr', ht⟩⟩
  · refine ⟨hcalled, fun hnone => ?_⟩
    rw [hnone v hv] at hl
    cases hl

end

def serve (ledger : (call : LedgerCall) → call.Answer) :
    (call : Call) → Clocked → Option (call.Answer × Clocked)
  | .now, c => some (c.read + 1, { c with read := c.read + 1 })
  | .ledger call, c => some (ledger call, c)
  | .store call, c => (TransactionTable.serve (c.read + 1) call c.table).map fun served =>
    (served.1, ⟨served.2, if Call.writes (.store call) then c.read + 1 else c.read⟩)
  | _, _ => none

theorem ticks_of_serve {ledger : (call : LedgerCall) → call.Answer} (call : Call) (c : Clocked)
    (a : call.Answer) (c' : Clocked) (h : serve ledger call c = some (a, c')) : ticks call c a c' := by
  cases call with
  | now =>
    cases h
    exact ⟨Int.lt_succ c.read, rfl⟩
  | ledger call =>
    cases h
    rfl
  | store call =>
    obtain ⟨⟨b, table⟩, hb, he⟩ := Option.map_eq_some_iff.mp h
    cases he
    refine ⟨c.read + 1, TransactionTable.answer_of_serve hb, ?_⟩
    split
    next => exact ⟨Int.lt_succ c.read, rfl⟩
    next => rfl
  | limits | categories | rates | pause => cases h

/-- Of two records, the first one is put off by the first sweep, and the second sweep takes the other. -/
theorem sweeps_starve_none_waitingPair : ∃ sweeps c',
    Sweeping plainService ⟨1000, 1, 1⟩ ⟨.waitingPair, 10000000⟩ sweeps c' ∧ sweeps.length = 2 ∧
      ∀ r ∈ TransactionTable.waitingPair.rows, ∃ vs ∈ sweeps, Called plainService vs r.id := by
  obtain ⟨⟨vs, outcome, c₁⟩, hfirst, hlater⟩ := Option.bind_eq_some_iff.mp (show
    ((plainService.sweep ⟨1000, 1, 1⟩).run.way (serve lockedLedger) ⟨.waitingPair, 10000000⟩).bind
      (fun first => ((plainService.sweep ⟨1000, 1, 1⟩).run.way (serve lockedLedger) first.2.2).map
        fun second => (first.2.1, second.2.1)) =
      some (.value (.ok ⟨1, 0, 0, 1, 0, 0⟩), .value (.ok ⟨1, 1, 0, 0, 0, 0⟩)) by decide +kernel)
  obtain ⟨⟨vs', outcome', c'⟩, hsecond, -⟩ := Option.map_eq_some_iff.mp hlater
  have hserved := Flow.goes_of_way (W := fun call c a c' => serve lockedLedger call c = some (a, c'))
    (fun _ _ _ _ h => h) hfirst
  obtain ⟨now, _, hnow, hhead⟩ :=
    (Service.sweeps_of_goes (fun h => finds_ticks (ticks_of_serve _ _ _ _ h)) hserved).reads (by decide)
  cases hnow
  have hsweeping : Sweeping plainService ⟨1000, 1, 1⟩ _ [vs, vs'] c' :=
    .cons (Flow.goes_of_way ticks_of_serve hfirst)
      (.cons (Flow.goes_of_way ticks_of_serve hsecond) .nil)
  have hstart : [vs, vs'].flatten.head? =
      some ⟨⟨.waitingPair, 10000000⟩, .now, (10000001 : Int)⟩ := by
    rw [List.flatten_cons, List.head?_append, hhead]
    rfl
  have hcount : (TransactionTable.waitingPair.waiting 9000001).length = 2 := by decide
  have hcalled := sweeps_starve_none ⟨TransactionTable.sound_waitingPair, by decide⟩ (by decide)
    (by decide) hsweeping hstart (Nat.le_of_eq hcount)
  refine ⟨_, _, hsweeping, rfl, fun r hr => (hcalled r ?_).1⟩
  revert r
  decide

end Clocked
end Settlement
