import Mathlib.Data.Int.Order.Basic
import Mathlib.Logic.Relation
import Settlement.Proofs.Legs
import Settlement.Proofs.Uptakes

/-!
The life of a record in its table. Rows stay where they were inserted and keep what they were inserted
with, steps do not go back, a status moves on until it is terminal, and then nothing changes any more.
-/

namespace Settlement

/-- One change of a status: a record is taken up, or it ends. -/
inductive TransactionStatus.Next : TransactionStatus → TransactionStatus → Prop
  | taken : Next .created .processing
  | ended {status last : TransactionStatus} (ongoing : status.isTerminal = false)
      (terminal : last.isTerminal = true) : Next status last

structure TransactionRecord.Before (r r' : TransactionRecord) : Prop where
  same : r.Same r'
  createdAt : r'.createdAt = r.createdAt
  final : r.status.isTerminal = true → r' = r
  step : r.step.id ≤ r'.step.id
  attempts : r.attempts ≤ r'.attempts

namespace TransactionRecord.Before

variable {r r' r'' : TransactionRecord}

theorem refl (r : TransactionRecord) : r.Before r := ⟨.refl r, rfl, fun _ => rfl, le_rfl, le_rfl⟩

theorem trans (h : r.Before r') (h' : r'.Before r'') : r.Before r'' where
  same := ⟨h.same.id.trans h'.same.id, h.same.payload.trans h'.same.payload⟩
  createdAt := h'.createdAt.trans h.createdAt
  final := by
    intro ht
    have he := h.final ht
    rw [← he] at ht
    rw [h'.final ht, he]
  step := Int.le_trans h.step h'.step
  attempts := Int.le_trans h.attempts h'.attempts

/-- Steps do not go back. -/
theorem forward (h : r.Before r') (step : TransactionStep) (hl : r'.step < step) : r.step < step :=
  Int.lt_of_le_of_lt h.step hl

end TransactionRecord.Before

/-- The same record, later, by writes that are the last only if they end it. -/
structure TransactionRecord.Becomes (r r' : TransactionRecord) : Prop extends r.Before r' where
  path : Relation.ReflTransGen TransactionStatus.Next r.status r'.status

theorem TransactionRecord.Becomes.refl (r : TransactionRecord) : r.Becomes r := ⟨.refl r, .refl⟩

theorem TransactionRecord.Becomes.trans {r r' r'' : TransactionRecord} (h : r.Becomes r')
    (h' : r'.Becomes r'') : r.Becomes r'' :=
  ⟨h.toBefore.trans h'.toBefore, h.path.trans h'.path⟩

inductive Finalization.Built : Finalization → Prop
  | completed : Built .completed
  | failed (message : String) (compensation : CompensationStatus) :
      Built (.failed message compensation)

theorem Finalization.Built.terminal {fin : Finalization} (h : fin.Built) :
    fin.status.isTerminal = true := by
  cases h <;> rfl

namespace Write

variable {w : Write} {r : TransactionRecord}

/-- A write that is allowed takes the record further. -/
theorem before (h : w.allows r) (now : Instant) : r.Before (w.apply now r) where
  same := (TransactionRecord.Same.refl r).apply w now
  createdAt := by cases w <;> rfl
  final := by
    intro ht
    rw [open_of_allows h] at ht
    contradiction
  step := by
    cases w with
    | take | close => exact le_rfl
    | advance step =>
      simp only [allows, Bool.and_eq_true, decide_eq_true_eq] at h
      exact Int.le_of_lt h.1
  attempts := by
    cases w with
    | take => exact Int.le_add_of_nonneg_right Int.one_nonneg
    | advance | close => exact le_rfl

theorem path (h : w.allows r) (hb : ∀ fin, w = .close fin → fin.Built) (now : Instant) :
    Relation.ReflTransGen TransactionStatus.Next r.status (w.apply now r).status := by
  have ho := open_of_allows h
  cases w with
  | advance => exact .refl
  | close fin => exact .single (.ended ho (hb fin rfl).terminal)
  | take =>
    change Relation.ReflTransGen TransactionStatus.Next r.status .processing
    cases hr : r.status with
    | created => exact .single .taken
    | processing => exact .refl
    | completed | failed =>
      rw [hr] at ho
      cases ho

end Write

namespace StoreCall

def write? : StoreCall → Option (TransactionId × Write)
  | markProcessing id => some (id, .take)
  | advanceStep id step => some (id, .advance step)
  | finalize id fin => some (id, .close fin)
  | _ => none

def Built (call : StoreCall) : Prop := ∀ id fin, call.write? = some (id, .close fin) → fin.Built

def Refused : (call : StoreCall) → call.Answer → Prop
  | insert _, a => a = .ok .duplicateKey
  | markProcessing _, a | advanceStep .., a | finalize .., a => a = .ok false
  | _, _ => False

end StoreCall

namespace TransactionTable

/-- Every row of the one table is at its place in the other, changed as the relation has it. -/
def Extends (R : TransactionRecord → TransactionRecord → Prop) (t t' : TransactionTable) : Prop :=
  ∀ (n : Nat) r, t.rows[n]? = some r → ∃ r', t'.rows[n]? = some r' ∧ R r r'

section

variable {R S : TransactionRecord → TransactionRecord → Prop} {t t' t'' : TransactionTable}
  {call : StoreCall} {now : Instant}

theorem Extends.refl (hR : ∀ r, R r r) (t : TransactionTable) : t.Extends R t :=
  fun _ r h => ⟨r, h, hR r⟩

theorem Extends.mono (h : t.Extends R t') (hRS : ∀ r r', R r r' → S r r') : t.Extends S t' :=
  fun n r hr => (h n r hr).imp fun r' hr' => hr'.imp_right (hRS r r')

theorem Extends.trans (hR : ∀ r r' r'', R r r' → R r' r'' → R r r'') (h : t.Extends R t')
    (h' : t'.Extends R t'') : t.Extends R t'' := by
  intro n r hr
  obtain ⟨r', hr', hs⟩ := h n r hr
  obtain ⟨r'', hr'', hs'⟩ := h' n r' hr'
  exact ⟨r'', hr'', hR r r' r'' hs hs'⟩

theorem Extends.onward (h : t.Extends TransactionRecord.Before t')
    (h' : t'.Extends TransactionRecord.Before t'') : t.Extends TransactionRecord.Before t'' :=
  h.trans (fun _ _ _ => TransactionRecord.Before.trans) h'

/-- A row is still there, as the relation has it. -/
theorem Extends.mem (h : t.Extends R t') {r : TransactionRecord} (hr : r ∈ t.rows) :
    ∃ r' ∈ t'.rows, R r r' := by
  obtain ⟨n, hn⟩ := List.getElem?_of_mem hr
  obtain ⟨r', hr', hs⟩ := h n r hn
  exact ⟨r', List.mem_of_getElem? hr', hs⟩

theorem extends_append (hR : ∀ r, R r r) {news : List TransactionRecord}
    (h : t'.rows = t.rows ++ news) : t.Extends R t' := by
  intro n r hr
  have hn := (List.getElem?_eq_some_iff.mp hr).1
  exact ⟨r, by rw [h, List.getElem?_append_left hn, hr], hR r⟩

inductive Touched (call : StoreCall) (r : TransactionRecord) : TransactionRecord → Prop
  | kept : Touched call r r
  | written {w : Write} (now : Instant) (named : call.write? = some (r.id, w))
      (allowed : w.allows r) : Touched call r (w.apply now r)

theorem Sound.touched (hs : t.Sound) {id : TransactionId} {w : Write} {q r : TransactionRecord}
    (hc : call.write? = some (id, w)) (hq : t.row? id = some q) (ha : w.allows q) (hr : r ∈ t.rows) :
    Touched call r (if r.id = id then w.apply now r else r) := by
  split
  next hi =>
    have he := hs.row?_of_mem hr
    rw [hi, hq, Option.some.injEq] at he
    subst he
    exact .written now (hi ▸ hc) ha
  next => exact .kept

theorem Written.extends {id : TransactionId} {w : Write} {done : Bool} (hs : t.Sound)
    (h : t.Written id w done t') (hc : call.write? = some (id, w)) : t.Extends (Touched call) t' := by
  cases h with
  | refused => exact .refl (fun _ => .kept) t
  | written now row allowed rows =>
    intro n r hr
    refine ⟨_, by rw [rows, List.getElem?_map, hr]; rfl, ?_⟩
    exact hs.touched hc row allowed (List.mem_of_getElem? hr)

inductive Left (t : TransactionTable) (call : StoreCall) : TransactionTable → Prop
  | same : Left t call t
  | written {id : TransactionId} {w : Write} {t' : TransactionTable}
      (asked : call.write? = some (id, w)) (done : t.Written id w true t') : Left t call t'
  | inserted {new : NewTransaction} {r : TransactionRecord} {t' : TransactionTable}
      (asked : call = .insert new) (done : t.Inserted new (.inserted r) t') : Left t call t'

theorem Written.left {id : TransactionId} {w : Write} {done : Bool} (h : t.Written id w done t')
    (hc : call.write? = some (id, w)) : t.Left call t' := by
  cases h with
  | written now row allowed rows keys => exact .written hc (.written now row allowed rows keys)
  | refused => exact .same

theorem Inserted.left {new : NewTransaction} {outcome : InsertOutcome}
    (h : t.Inserted new outcome t') : t.Left (.insert new) t' := by
  cases h with
  | inserted now row free rows sound next => exact .inserted rfl (.inserted now row free rows sound next)
  | duplicate => exact .same

theorem Sound.answer_left (hs : t.Sound) (call : StoreCall) (now : Instant) :
    t.Left call (answer now call t).2 := by
  cases call with
  | insert new => exact (hs.inserted new now).left
  | markProcessing id => exact (t.update_written id .take now).left rfl
  | advanceStep id step => exact (t.update_written id (.advance step) now).left rfl
  | finalize id fin => exact (t.update_written id (.close fin) now).left rfl
  | get | getByKey | findStuck | history => exact .same
  | sumSpending user since =>
    rw [answer_sumSpending]
    exact .same

theorem Left.sound (h : t.Left call t') (hs : t.Sound) : t'.Sound := by
  cases h with
  | same => exact hs
  | written _ done => exact hs.write done
  | inserted _ done =>
    cases done with
    | inserted _ _ _ _ sound => exact sound

theorem Left.extends (h : t.Left call t') (hs : t.Sound) : t.Extends (Touched call) t' := by
  cases h with
  | same => exact .refl (fun _ => .kept) t
  | written asked done => exact done.extends hs asked
  | inserted _ done =>
    cases done with
    | inserted _ _ _ rows => exact extends_append (fun _ => .kept) rows

theorem Touched.before {r r' : TransactionRecord} (h : Touched call r r') : r.Before r' := by
  cases h with
  | kept => exact .refl r
  | written now _ allowed => exact Write.before allowed now

theorem Touched.becomes {r r' : TransactionRecord} (h : Touched call r r') (hb : call.Built) :
    r.Becomes r' := by
  refine ⟨h.before, ?_⟩
  cases h with
  | kept => exact .refl
  | written now named allowed =>
    refine Write.path allowed ?_ now
    rintro fin rfl
    exact hb _ _ named

/-- Rows go on where they are, whoever asked for the write. -/
theorem Written.goes_on {id : TransactionId} {w : Write} {done : Bool} (hs : t.Sound)
    (h : t.Written id w done t') : t.Extends TransactionRecord.Before t' := by
  obtain ⟨call, hc⟩ : ∃ call : StoreCall, call.write? = some (id, w) := by
    cases w with
    | take => exact ⟨.markProcessing id, rfl⟩
    | advance step => exact ⟨.advanceStep id step, rfl⟩
    | close fin => exact ⟨.finalize id fin, rfl⟩
  exact (h.extends hs hc).mono fun _ _ ht => ht.before

/-- A row that the call does not name is left as it is. -/
theorem Left.unnamed (h : t.Left call t') (hs : t.Sound) {r : TransactionRecord} (hr : r ∈ t.rows)
    (hn : ∀ w, call.write? ≠ some (r.id, w)) : t'.row? r.id = some r := by
  obtain ⟨r', hr', ht⟩ := (h.extends hs).mem hr
  cases ht with
  | kept => exact (h.sound hs).row?_of_mem hr'
  | written _ named => exact absurd named (hn _)

theorem Written.eq_of_refused {id : TransactionId} {w : Write} (h : t.Written id w false t') :
    t' = t := by
  cases h
  rfl

/-- A call that answers that nothing was done did nothing. -/
theorem answer_refused {a : call.Answer} (h : (answer now call t).1 = .value a)
    (hr : call.Refused a) : (answer now call t).2 = t := by
  have hw : ∀ (id : TransactionId) (w : Write),
      Flow.Outcome.value (.ok (t.update id w.allows (w.apply now)).1) =
        Flow.Outcome.value (.ok false : Except ServiceError Bool) →
      (t.update id w.allows (w.apply now)).2 = t := by
    intro id w hd
    have hu := t.update_written id w now
    simp only [Flow.Outcome.value.injEq, Except.ok.injEq] at hd
    rw [hd] at hu
    exact hu.eq_of_refused
  cases call with
  | insert new =>
    cases hr
    simp only [answer, insert] at h ⊢
    split at h
    next hk => simp [hk]
    next => simp at h
  | markProcessing id =>
    cases hr
    exact hw id .take h
  | advanceStep id step =>
    cases hr
    exact hw id (.advance step) h
  | finalize id fin =>
    cases hr
    exact hw id (.close fin) h
  | get | getByKey | findStuck | history | sumSpending => cases hr

/-- Keys and rows are in bijection, and the rows are numbered from 1. -/
structure Paired (t : TransactionTable) : Prop where
  ids : t.rows.map (·.id) = (List.range t.rows.length).map fun n : Nat => (n : Int) + 1
  once : (t.keys.map Prod.fst).Nodup
  entry : ∀ key id, (key, id) ∈ t.keys ↔ ∃ r ∈ t.rows, r.key = key ∧ r.id = id
  found : ∀ key r, t.rowByKey? key = some r ↔ r ∈ t.rows ∧ r.key = key

theorem Sound.entry (hs : t.Sound) (key : String) (id : TransactionId) :
    (key, id) ∈ t.keys ↔ ∃ r ∈ t.rows, r.key = key ∧ r.id = id := by
  simp [hs.index]

theorem Sound.found (hs : t.Sound) (key : String) (r : TransactionRecord) :
    t.rowByKey? key = some r ↔ r ∈ t.rows ∧ r.key = key := by
  constructor
  · intro h
    obtain ⟨id, hl, hr⟩ := Option.bind_eq_some_iff.mp h
    obtain ⟨hm, rfl⟩ := mem_of_row? hr
    obtain ⟨front, back, he, -⟩ := List.lookup_eq_some_iff.mp hl
    obtain ⟨q, hq, hk, hi⟩ := (hs.entry key r.id).mp (by simp [he])
    rw [List.inj_on_of_nodup_map hs.ids hq hm hi] at hk
    exact ⟨hm, hk⟩
  · rintro ⟨hm, rfl⟩
    exact hs.rowByKey?_of_row? (hs.row?_of_mem hm)

end

def calls (t : TransactionTable) (cs : List (Instant × StoreCall)) : TransactionTable :=
  cs.foldl (fun t c => (answer c.1 c.2 t).2) t

structure Ran (t : TransactionTable) : Prop where
  sound : t.Sound
  ids : t.rows.map (·.id) = (List.range t.rows.length).map fun n : Nat => (n : Int) + 1
  path : ∀ r ∈ t.rows, Relation.ReflTransGen TransactionStatus.Next .created r.status

section

variable {t t' : TransactionTable} {cs : List (Instant × StoreCall)} {call : StoreCall}

theorem ran_empty : Ran {} := ⟨sound_empty, rfl, by simp⟩

theorem Ran.paired (h : t.Ran) : t.Paired where
  ids := h.ids
  once := by simpa [h.sound.index, Function.comp_def] using h.sound.once
  entry := h.sound.entry
  found := h.sound.found

/-- A row of the table after a call was there before it, or it was inserted by the call. -/
theorem Left.back (h : t.Left call t') (hs : t.Sound) {r' : TransactionRecord} (hr : r' ∈ t'.rows) :
    (∃ r ∈ t.rows, Touched call r r') ∨ r'.status = .created := by
  cases h with
  | same => exact .inl ⟨r', hr, .kept⟩
  | written asked done =>
    cases done with
    | written now row allowed rows =>
      rw [rows] at hr
      obtain ⟨r, hm, rfl⟩ := List.mem_map.mp hr
      exact .inl ⟨r, hm, hs.touched asked row allowed hm⟩
  | inserted _ done =>
    cases done with
    | inserted now row _ rows =>
      rw [rows] at hr
      rcases List.mem_append.mp hr with hr | hr
      · exact .inl ⟨r', hr, .kept⟩
      · rw [List.mem_singleton.mp hr, row]
        exact .inr rfl

theorem Left.ids (h : t.Left call t') :
    t'.rows.map (·.id) = t.rows.map (·.id) ∨
      t'.rows.map (·.id) = t.rows.map (·.id) ++ [(t.rows.length : Int) + 1] := by
  cases h with
  | same => exact .inl rfl
  | written _ done =>
    cases done with
    | written now _ _ rows => exact .inl (map_rows rows _ (Write.apply_id now _))
  | inserted _ done =>
    cases done with
    | inserted _ _ _ rows _ next => exact .inr (by simp [rows, next])

theorem Left.numbered (h : t.Left call t')
    (hn : t.rows.map (·.id) = (List.range t.rows.length).map fun n : Nat => (n : Int) + 1) :
    t'.rows.map (·.id) = (List.range t'.rows.length).map fun n : Nat => (n : Int) + 1 := by
  rcases h.ids with hi | hi
  · have hl := congrArg List.length hi
    simp only [List.length_map] at hl
    rw [hi, hl, hn]
  · have hl := congrArg List.length hi
    simp only [List.length_map, List.length_append, List.length_singleton] at hl
    rw [hi, hl, hn, List.range_succ, List.map_append, List.map_singleton]

/-- One more call. -/
theorem Ran.next (h : t.Ran) (hl : t.Left call t') (hb : call.Built) : t'.Ran where
  sound := hl.sound h.sound
  ids := hl.numbered h.ids
  path := by
    intro r' hr'
    rcases hl.back h.sound hr' with ⟨r, hr, ht⟩ | hc
    · exact (h.path r hr).trans (ht.becomes hb).path
    · rw [hc]

theorem calls_append (t : TransactionTable) (past next : List (Instant × StoreCall)) :
    t.calls (past ++ next) = (t.calls past).calls next :=
  List.foldl_append

theorem Ran.calls (h : t.Ran) (hb : ∀ c ∈ cs, c.2.Built) : (t.calls cs).Ran := by
  induction cs generalizing t with
  | nil => exact h
  | cons c cs ih =>
    have hfirst := h.next (h.sound.answer_left c.2 c.1) (hb c List.mem_cons_self)
    exact ih hfirst fun d hd => hb d (List.mem_cons_of_mem c hd)

/-- A record counts as many attempts at most as calls take it up. -/
theorem calls_uptakes (t : TransactionTable) (cs : List (Instant × StoreCall)) (id : TransactionId) :
    t.Uptakes id (cs.countP fun c => c.2 = .markProcessing id) (t.calls cs) := by
  induction cs generalizing t with
  | nil => exact .refl t id _
  | cons c cs ih =>
    have h := (t.answer_uptakes c.1 c.2 id).trans (ih _)
    rw [Nat.add_comm] at h
    show t.Uptakes id _ ((answer c.1 c.2 t).2.calls cs)
    simpa [List.countP_cons] using h

theorem Sound.calls (hs : t.Sound) (cs : List (Instant × StoreCall)) : (t.calls cs).Sound := by
  induction cs generalizing t with
  | nil => exact hs
  | cons c cs ih => exact ih ((hs.answer_left c.2 c.1).sound hs)

theorem Sound.attempts_of_mem (hs : t.Sound) {r : TransactionRecord} (hr : r ∈ t.rows) :
    t.attempts r.id = r.attempts := attempts_of_row? (hs.row?_of_mem hr)

/-- The attempts of a record that was inserted by one of the calls. -/
theorem calls_attempts {r : TransactionRecord} (hr : r ∈ (calls {} cs).rows) :
    0 ≤ r.attempts ∧ r.attempts ≤ cs.countP fun c => c.2 = .markProcessing r.id := by
  have hs : (calls {} cs).Sound := sound_empty.calls cs
  obtain ⟨hkept, hbounded⟩ := calls_uptakes {} cs r.id
  have hnone : attempts {} r.id = 0 := rfl
  rw [hs.attempts_of_mem hr, hnone] at hkept hbounded
  exact ⟨hkept, by simpa using hbounded⟩

/-- Whatever is called, every row goes on where it is. -/
theorem calls_extends (hs : t.Sound) (hb : ∀ c ∈ cs, c.2.Built) :
    t.Extends TransactionRecord.Becomes (t.calls cs) := by
  induction cs generalizing t with
  | nil => exact .refl TransactionRecord.Becomes.refl t
  | cons c cs ih =>
    have hl := hs.answer_left c.2 c.1
    have hc := (hl.extends hs).mono fun _ _ ht => ht.becomes (hb c List.mem_cons_self)
    refine hc.trans (fun _ _ _ => TransactionRecord.Becomes.trans) ?_
    exact ih (hl.sound hs) fun d hd => hb d (List.mem_cons_of_mem c hd)

end

/-- Between any two points of a run of calls from the empty table: keys and rows are in bijection, rows
keep what they were inserted with and move on only, and a row that has ended stays. What comes next
leaves all rows that it does not name, and the whole table if it answers that nothing was done. -/
theorem records_move_on (past next : List (Instant × StoreCall))
    (hb : ∀ c ∈ past ++ next, c.2.Built) :
    (calls {} past).Paired ∧
    (∀ r ∈ (calls {} past).rows,
      Relation.ReflTransGen TransactionStatus.Next .created r.status ∧
      0 ≤ r.attempts ∧ r.attempts ≤ past.countP fun c => c.2 = .markProcessing r.id) ∧
    (∀ r ∈ (calls {} past).rows,
      ∃ r', (calls {} (past ++ next)).row? r.id = some r' ∧ r.Becomes r') ∧
    ∀ now call,
      (∀ a, (answer now call (calls {} past)).1 = .value a → call.Refused a →
        (answer now call (calls {} past)).2 = calls {} past) ∧
      ∀ r ∈ (calls {} past).rows, (∀ w, call.write? ≠ some (r.id, w)) →
        (answer now call (calls {} past)).2.row? r.id = some r := by
  have hpast : ∀ c ∈ past, c.2.Built := fun c hc => hb c (List.mem_append_left _ hc)
  have hran := ran_empty.calls hpast
  have hend := ran_empty.calls hb
  refine ⟨hran.paired, fun r hr => ⟨hran.path r hr, calls_attempts hr⟩, ?_,
    fun now call => ⟨?_, ?_⟩⟩
  · intro r hr
    have he : (calls {} past).Extends TransactionRecord.Becomes (calls {} (past ++ next)) := by
      rw [calls_append]
      exact calls_extends hran.sound fun c hc => hb c (List.mem_append_right _ hc)
    obtain ⟨r', hr', hl⟩ := he.mem hr
    exact ⟨r', hl.same.id ▸ hend.sound.row?_of_mem hr', hl⟩
  · intro a ha hr
    exact answer_refused ha hr
  · intro r hr hn
    exact (hran.sound.answer_left call now).unnamed hran.sound hr hn

def closedDeposit : List (Instant × StoreCall) :=
  [(5, .insert ⟨1, none, some 1, .one, .one, .one, .usd, .deposit, none, "a"⟩),
    (6, .markProcessing 1), (7, .finalize 1 .completed)]

def lateDriver : List (Instant × StoreCall) :=
  [(8, .markProcessing 1), (9, .advanceStep 1 .debitDone), (9, .finalize 1 (.failed "late" .failed))]

theorem records_move_on_lateDriver :
    (∀ c ∈ closedDeposit ++ lateDriver, c.2.Built) ∧
    ∃ r ∈ (calls {} closedDeposit).rows, r.status = .completed ∧
      (calls {} (closedDeposit ++ lateDriver)).row? r.id = some r := by
  have hb : ∀ c ∈ closedDeposit ++ lateDriver, c.2.Built := by
    intro c hc id fin hw
    simp only [closedDeposit, lateDriver, List.cons_append, List.nil_append, List.mem_cons,
      List.not_mem_nil, or_false] at hc
    rcases hc with rfl | rfl | rfl | rfl | rfl | rfl <;> cases hw
    · exact .completed
    · exact .failed _ _
  obtain ⟨r, hr, hs⟩ : ∃ r ∈ (calls {} closedDeposit).rows, r.status = .completed := by
    decide +kernel
  obtain ⟨r', hr', hl⟩ := (records_move_on closedDeposit lateDriver hb).2.2.1 r hr
  rw [hl.final (by rw [hs]; rfl)] at hr'
  exact ⟨hb, r, hr, hs, hr'⟩

end TransactionTable
end Settlement
