import Settlement.Proofs.Deeds
import Settlement.Proofs.Recoveries
import Settlement.Proofs.Waiting

/-!
A sweep of stores where any call may fail. Main statement: it recovers what it selected, each record
once, and it leaves all other records and their rows alone.
-/

namespace Settlement

/-- The record is taken up once more, and but for its step it is what it was. -/
structure TransactionRecord.TakenUp (r r' : TransactionRecord) : Prop where
  same : r.Same r'
  createdAt : r'.createdAt = r.createdAt
  status : r'.status = .processing
  attempts : r'.attempts = r.attempts + 1

theorem TransactionRecord.TakenUp.advance {r r' : TransactionRecord} (h : r.TakenUp r')
    (step : TransactionStep) (now : Instant) : r.TakenUp ((Write.advance step).apply now r') :=
  ⟨h.same.apply (.advance step) now, h.createdAt, h.status, h.attempts⟩

namespace Stores

/-- The stores answer in any way that a reply can bring about, and no call breaks off. -/
def meets : Surroundings Call.Answer Stores := fun call σ a σ' =>
  ∃ reply eff, σ.meet call reply = some (.value a, eff, σ')

theorem finds_meets : Service.Finds meets := by
  rintro id tx σ σ' ⟨reply, eff, hm⟩
  exact (TransactionTable.mem_of_row? (meet_get hm _ rfl)).2

theorem meet_findStuck {σ σ' : Stores} {cutoff : Instant} {limit : Nat} {reply : Reply}
    {eff : Effect} {stuck : List TransactionRecord}
    (h : σ.meet (.store (.findStuck cutoff limit)) reply = some (.value (.ok stuck), eff, σ')) :
    σ.table.findStuck cutoff limit = stuck := by
  obtain ⟨-, -, ⟨e, he⟩, -⟩ | ⟨now, real, hr, -, -, ha | ⟨⟨e, he⟩, -⟩⟩ := meet_store h
  · cases he
  · have hv : Flow.Outcome.value (.ok (σ.table.findStuck cutoff limit)) = real := congrArg Prod.fst hr
    rw [ha] at hv
    exact Except.ok.inj (Flow.Outcome.value.inj hv)
  · cases he

/-- However a call is met, it counts an attempt only if it takes the record up. -/
theorem meets_uptakes {call : Call} {a : call.Answer} {σ σ' : Stores} (h : meets call σ a σ')
    (id : TransactionId) :
    σ.table.Uptakes id (if call = .store (.markProcessing id) then 1 else 0) σ'.table := by
  obtain ⟨reply, eff, hm⟩ := h
  obtain ⟨-, rfl, -⟩ | ⟨now, real, hc, -⟩ := meet_cases hm
  · exact .of_eq rfl
  cases call with
  | ledger call =>
    cases hc
    exact .of_eq rfl
  | store call =>
    cases hc
    simp only [Call.store.injEq]
    exact σ.table.answer_uptakes now call id
  | limits | categories | rates | now | pause => cases hc

/-- Nothing but the records with these ids was changed, and rows were added only for them. -/
structure Within (ids : List TransactionId) (σ σ' : Stores) : Prop where
  sound : σ'.table.Sound
  records : ∀ id, id ∉ ids → σ'.table.row? id = σ.table.row? id
  rows : ∃ news, σ'.book.applied = σ.book.applied ++ news ∧
    ∀ row ∈ news, row.operation.transaction ∈ ids

section

variable {σ σ₁ σ' : Stores} {ids : List TransactionId} {id : TransactionId} {eff : Effect}
  {reply : Reply} {r : TransactionRecord}

theorem Within.refl (hs : σ.table.Sound) (ids : List TransactionId) : σ.Within ids σ :=
  ⟨hs, fun _ _ => rfl, [], by simp, by simp⟩

theorem Within.mono {ids' : List TransactionId} (h : σ.Within ids σ') (hi : ids ⊆ ids') :
    σ.Within ids' σ' := by
  obtain ⟨news, hnews, hmem⟩ := h.rows
  exact ⟨h.sound, fun id hid => h.records id fun hm => hid (hi hm), news, hnews,
    fun row hrow => hi (hmem row hrow)⟩

theorem Within.trans (h : σ.Within ids σ₁) (h' : σ₁.Within ids σ') : σ.Within ids σ' := by
  obtain ⟨news, hnews, hmem⟩ := h.rows
  obtain ⟨news', hnews', hmem'⟩ := h'.rows
  refine ⟨h'.sound, fun id hid => (h'.records id hid).trans (h.records id hid), news ++ news', ?_, ?_⟩
  · rw [hnews', hnews, List.append_assoc]
  · exact List.forall_mem_append.mpr ⟨hmem, hmem'⟩

theorem Change.within (h : σ.Change eff σ') (hs : σ.table.Sound)
    (he : eff = .nothing ∨ eff.about = some id) : σ.Within [id] σ' := by
  cases h with
  | nothing => exact .refl hs [id]
  | @applied _ row fresh rows table =>
    obtain he | he := he
    · cases he
    refine ⟨table ▸ hs, fun _ _ => by rw [table], [row], rows, fun q hq => ?_⟩
    rw [List.mem_singleton.mp hq, List.mem_singleton]
    exact Option.some.inj he
  | wrote table book =>
    obtain he | he := he
    · cases he
    cases Option.some.inj he
    refine ⟨hs.write table, fun other hne => table.row?_ne ?_, [], by simp [book], by simp⟩
    exact fun heq => hne (heq ▸ List.mem_singleton_self _)
  | inserted => rcases he with he | he <;> cases he

def TakenUp (σ : Stores) (id : TransactionId) (σ' : Stores) : Prop :=
  σ.Within [id] σ' ∧ ∃ r r', σ.table.row? id = some r ∧ σ'.table.row? id = some r' ∧ r.TakenUp r'

def Closed (σ : Stores) (id : TransactionId) (σ' : Stores) : Prop :=
  σ.Within [id] σ' ∧ ∃ r', σ'.table.row? id = some r' ∧ r'.status.isTerminal = true

theorem recoverable_meets (σ : Stores) (id : TransactionId) :
    Service.Recoverable (Flow.tracing meets) id (fun y => σ.TakenUp id y.1) (fun _ => True)
      (fun y => σ.Closed id y.1) fun y => σ.Within [id] y.1 where
  leg := by
    rintro y direction account amount phase ⟨hw, r, r', hr, hr', ht⟩ a σ' ⟨reply, eff, hm⟩
    have hmoved := meet_mutate hm
    obtain ⟨hc, he⟩ := hmoved.change
    refine ⟨⟨hw.trans (hc.within hw.sound he), r, r', hr, ?_, ht⟩, fun _ _ _ => trivial⟩
    cases hmoved with
    | applied _ _ table => rw [table, hr']
    | unapplied => exact hr'
  advance := by
    rintro y step ⟨hw, r, r', hr, hr', ht⟩ a σ' ⟨reply, eff, hm⟩
    have hwrote := meet_advanceStep hm
    obtain ⟨hc, he⟩ := hwrote.change
    refine ⟨⟨hw.trans (hc.within hw.sound he), ?_⟩, fun _ _ _ => trivial⟩
    obtain ⟨now, -, hrow, -⟩ | ⟨-, rfl, -⟩ := hwrote.record hr'
    · exact ⟨r, _, hr, hrow, ht.advance step now⟩
    · exact ⟨r, r', hr, hr', ht⟩
  found := by
    rintro y hy a σ' ⟨reply, eff, hm⟩
    obtain ⟨-, rfl⟩ := meet_reads rfl hm
    exact ⟨fun tx ha => ⟨finds_meets ⟨reply, eff, ha ▸ hm⟩, hy⟩, fun _ => hy.1⟩
  ends := by
    rintro y fin hf ⟨hw, r, r', hr, hr', ht⟩ a σ' ⟨reply, eff, hm⟩
    have hwrote := meet_finalize hm
    obtain ⟨hc, he⟩ := hwrote.change
    have hw' := hw.trans (hc.within hw.sound he)
    refine ⟨fun done ha => ⟨hw', ?_⟩, fun _ _ => hw'⟩
    obtain ⟨now, -, hrow, -⟩ | ⟨-, -, ⟨-, hbarred⟩ | ⟨⟨e, he⟩, -⟩⟩ := hwrote.record hr'
    · exact ⟨_, hrow, hf.terminal⟩
    · rw [Write.allows, ht.status] at hbarred
      cases hbarred
    · cases he.symm.trans ha

/-- A recovery changes nothing but its record and the record's rows, and it answers what became of
the record. -/
theorem recover_meets {s : Service} {vs : List (Visit Call.Answer Stores)} {result : RecoveryResult}
    (hs : σ.table.Sound) (h : (s.recover id).run.Goes meets σ vs (.value result) σ') :
    σ.Within [id] σ' ∧ (result = .ok .completed ∨ result = .ok .failed → σ.Closed id σ') ∧
      (result = .ok .deferred → σ.TakenUp id σ') := by
  have hc := h.closes (Service.recover_reports (fun y => σ.Within [id] y.1) (recoverable_meets σ id) ?_)
  · rcases result with e | outcome
    · exact ⟨hc, by simp, by simp⟩
    · cases outcome with
      | completed => exact ⟨(hc.closed (.inl rfl)).1, fun _ => hc.closed (.inl rfl), by simp⟩
      | failed => exact ⟨(hc.closed (.inr rfl)).1, fun _ => hc.closed (.inr rfl), by simp⟩
      | deferred => exact ⟨(hc.deferred rfl).1.1, by simp, fun _ => (hc.deferred rfl).1⟩
      | skipped => exact ⟨hc.skipped rfl, by simp, by simp⟩
  · rintro a σ₁ ⟨reply, eff, hm⟩
    have hwrote := meet_markProcessing hm
    obtain ⟨hch, he⟩ := hwrote.change
    have hw := hch.within hs he
    refine ⟨fun ha => ⟨hw, ?_⟩, fun _ => hw, fun _ _ => hw⟩
    subst ha
    obtain ⟨r, hr, -⟩ := hwrote.present
    obtain ⟨now, -, hrow, -⟩ | ⟨-, -, ⟨ha, -⟩ | ⟨⟨e, ha⟩, -⟩⟩ := hwrote.record hr
    · exact ⟨r, _, hr, hrow, (TransactionRecord.Same.refl r).apply .take now, rfl, rfl, rfl⟩
    · cases ha
    · cases ha

section

variable {s : Service} {results : List (TransactionId × RecoveryResult)}
  {vs : List (Visit Call.Answer Stores)}

theorem recovers_within (h : Service.Recovers meets s results σ vs σ') (hs : σ.table.Sound) :
    σ.Within (results.map (·.1)) σ' := by
  induction h with
  | nil => exact .refl hs _
  | cons first _ ih =>
    have hfirst := (recover_meets hs first).1
    exact (hfirst.mono (by simp)).trans ((ih hfirst.sound).mono (by simp))

/-- What was answered of a record holds until the end, for no other recovery touches it. -/
theorem recovers_account (h : Service.Recovers meets s results σ vs σ') (hs : σ.table.Sound)
    (hn : (results.map (·.1)).Nodup) : ∀ entry ∈ results,
      (entry.2 = .ok .completed ∨ entry.2 = .ok .failed →
        ∃ r', σ'.table.row? entry.1 = some r' ∧ r'.status.isTerminal = true) ∧
      (entry.2 = .ok .deferred → ∃ r r', σ.table.row? entry.1 = some r ∧
        σ'.table.row? entry.1 = some r' ∧ r.TakenUp r') := by
  induction h with
  | nil => simp
  | @cons id result results σ σ₁ σ' vs rest first later ih =>
    obtain ⟨hid, hn⟩ := List.nodup_cons.mp hn
    obtain ⟨hw, hclosed, hdeferred⟩ := recover_meets hs first
    have hkept := (recovers_within later hw.sound).records id hid
    refine List.forall_mem_cons.mpr ⟨⟨fun he => ?_, fun he => ?_⟩, fun entry hentry => ?_⟩
    · rw [hkept]
      exact (hclosed he).2
    · rw [hkept]
      exact (hdeferred he).2
    · have hne : entry.1 ∉ [id] := by
        rw [List.mem_singleton]
        exact fun heq => hid (List.mem_map.mpr ⟨entry, hentry, heq⟩)
      rw [← hw.records entry.1 hne]
      exact ih hw.sound hn entry hentry

end

/-- A sweep that selected the records at the front of a queue: what it asked, what it answered, and
what it left of the stores. -/
structure Swept (s : Service) (settings : SweepSettings) (now : Instant)
    (queue : List TransactionRecord) (results : List (TransactionId × RecoveryResult)) (σ : Stores)
    (vs : List (Visit Call.Answer Stores)) (outcome : Flow.Outcome (Except ServiceError SweepReport))
    (σ' : Stores) : Prop where
  /-- The open records whose last write is before the cutoff. -/
  waiting : queue.Perm (σ.table.waiting (now - settings.processingTimeoutSecs * 1000000))
  order : queue.Pairwise TransactionRecord.Precedes
  /-- The selection, and one recovery after the other, each to its end. -/
  visits : ∃ rest, Service.Recovers meets s results σ rest σ' ∧
    vs = ⟨σ, .now, now⟩ :: ⟨σ, .store (.findStuck
      (now - settings.processingTimeoutSecs * 1000000) settings.batchSize),
        .ok (queue.take settings.batchSize)⟩ :: rest
  selected : results.map (·.1) = (queue.take settings.batchSize).map (·.id)
  once : (results.map (·.1)).Nodup
  report : ∃ report, outcome = .value (.ok report) ∧ report = .ofResults (results.map (·.2)) ∧
    report.found =
      report.completed + report.failed + report.deferred + report.skipped + report.errors
  /-- All other records are as they were, and so are the rows of their transactions. -/
  frame : σ.Within (results.map (·.1)) σ'
  /-- Attempts do not fall, and grow at most by the number of times that the record is taken up. -/
  attempts : ∀ id,
    σ.table.Uptakes id (vs.countP fun v => v.question = .store (.markProcessing id)) σ'.table ∧
      ∀ v ∈ vs, v.state.table.attempts id ≤ σ'.table.attempts id
  closed : ∀ entry ∈ results, entry.2 = .ok .completed ∨ entry.2 = .ok .failed →
    ∃ r, σ'.table.row? entry.1 = some r ∧ r.status.isTerminal = true
  deferred : ∀ entry ∈ results, entry.2 = .ok .deferred →
    ∃ r r', σ.table.row? entry.1 = some r ∧ σ'.table.row? entry.1 = some r' ∧ r.TakenUp r'

/-- Whatever fails on the way, a sweep whose selection succeeds recovers each of the records that have
waited longest once, it touches nothing else, and its report says what became of them. -/
theorem sweep_accounts {s : Service} {settings : SweepSettings}
    {vs : List (Visit Call.Answer Stores)} {outcome : Flow.Outcome (Except ServiceError SweepReport)}
    {cutoff : Instant} {limit : Nat} {stuck : List TransactionRecord} (hs : σ.table.Sound)
    (ho : σ.table.rows.Pairwise (·.id < ·.id))
    (h : (s.sweep settings).run.Goes meets σ vs outcome σ')
    (hselected : ⟨σ₁, .store (.findStuck cutoff limit), .ok stuck⟩ ∈ vs) :
    ∃ now queue results, Swept s settings now queue results σ vs outcome σ' := by
  have huptakes := fun id => h.uptakes Stores.table id fun _ _ _ _ hm => meets_uptakes hm id
  cases Service.sweeps_of_goes finds_meets h with
  | timeless => cases hselected
  | early => cases List.mem_singleton.mp hselected
  | unselected =>
    obtain hselected | hselected := List.mem_cons.mp hselected
    · cases hselected
    · cases List.mem_singleton.mp hselected
  | @selected now _ _ _ _ stuck results rest back read select recovers ids =>
    subst back
    obtain ⟨reply, eff, hread⟩ := read
    obtain ⟨reply', eff', hselect⟩ := select
    obtain ⟨-, rfl⟩ := meet_reads rfl hread
    obtain ⟨-, rfl⟩ := meet_reads rfl hselect
    obtain ⟨queue, hwaiting, horder, hfront⟩ := TransactionTable.findStuck_front ho
      (now - settings.processingTimeoutSecs * 1000000)
    obtain rfl : queue.take settings.batchSize = stuck := by rw [← hfront, meet_findStuck hselect]
    have honce : (results.map (·.1)).Nodup := by
      rw [ids, ← hfront]
      exact hs.findStuck_ids _ _
    exact ⟨now, queue, results, {
      waiting := hwaiting
      order := horder
      visits := ⟨rest, recovers, rfl⟩
      selected := ids
      once := honce
      report := ⟨_, rfl, rfl, SweepReport.found_ofResults _⟩
      frame := recovers_within recovers hs
      attempts := fun id => ⟨(huptakes id).1, fun v hv => ((huptakes id).2 v hv).2⟩
      closed := fun entry hentry => (recovers_account recovers hs honce entry hentry).1
      deferred := fun entry hentry => (recovers_account recovers hs honce entry hentry).2 }⟩

end

def serve (now : Instant) : (call : Call) → Stores → Option (call.Answer × Stores)
  | .now, σ => some (now, σ)
  | .ledger call, σ =>
    match Book.answer call σ.book with
    | (.value a, book) => some (a, { σ with book })
    | (.panic _, _) => none
  | .store call, σ =>
    (TransactionTable.serve now call σ.table).map fun served => (served.1, { σ with table := served.2 })
  | _, _ => none

theorem meets_of_serve {now : Instant} (call : Call) (σ : Stores) (a : call.Answer) (σ' : Stores)
    (h : serve now call σ = some (a, σ')) : meets call σ a σ' := by
  cases call with
  | now =>
    cases h
    exact ⟨.elsewhere .now now, _, rfl⟩
  | ledger call =>
    simp only [serve] at h
    split at h
    next heq =>
      cases h
      exact ⟨.served now, _, by simp only [meet, carry, heq]; rfl⟩
    next => cases h
  | store call =>
    obtain ⟨⟨b, table⟩, hb, he⟩ := Option.map_eq_some_iff.mp h
    cases he
    exact ⟨.served now, Call.effect (.store call) (.value b),
      by simp only [meet, carry, TransactionTable.answer_of_serve hb]; rfl⟩
  | limits | categories | rates | pause => cases h

def lockedPair : Stores where
  book := { accounts := [⟨1, 1, .usd, .one, .active⟩, ⟨2, 1, .usd, .one, .active⟩], held := [2] }
  table := .waitingPair

/-- The transfer is put off and the deposit completes. -/
theorem sweep_accounts_lockedPair : ∃ now queue results vs σ',
    Swept plainService ⟨1000, 1, 5⟩ now queue results lockedPair vs (.value (.ok ⟨2, 1, 0, 1, 0, 0⟩))
      σ' := by
  obtain ⟨⟨vs, outcome, σ'⟩, hway, houtcome⟩ := Option.map_eq_some_iff.mp (show
    ((plainService.sweep ⟨1000, 1, 5⟩).run.way (serve 10000000) lockedPair).map (·.2.1) =
      some (.value (.ok ⟨2, 1, 0, 1, 0, 0⟩)) by decide +kernel)
  cases houtcome
  have hgoes := Flow.goes_of_way meets_of_serve hway
  obtain ⟨σ₁, cutoff, limit, stuck, hselected⟩ := (Service.sweeps_of_goes finds_meets hgoes).selection
  obtain ⟨now, queue, results, hswept⟩ :=
    sweep_accounts TransactionTable.sound_waitingPair (by decide) hgoes hselected
  exact ⟨now, queue, results, vs, σ', hswept⟩

end Stores
end Settlement
