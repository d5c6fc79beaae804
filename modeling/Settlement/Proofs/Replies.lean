import Settlement.Proofs.Legs
import Settlement.Proofs.Stages

/-!
The ledger and the store together, the ways in which a call on them can be answered, and what each
leaves behind. A call is carried out or refused, and the answer of one that was carried out may be
lost.
-/

namespace Settlement

structure Stores where
  book : Book := {}
  table : TransactionTable := {}

inductive Failure where
  | ledger (e : LedgerError)
  | store (e : ServiceError)

def LedgerCall.failed (e : LedgerError) : (call : LedgerCall) → call.Answer
  | .getAccount _ => .error e
  | .mutate .. => .error e

def StoreCall.failed (e : ServiceError) : (call : StoreCall) → call.Answer
  | .insert _ => .error e
  | .get _ => .error e
  | .getByKey _ => .error e
  | .markProcessing _ => .error e
  | .advanceStep .. => .error e
  | .finalize .. => .error e
  | .findStuck .. => .error e
  | .history .. => .error e
  | .sumSpending .. => .error e

def Failure.answer? : Failure → (call : Call) → Option call.Answer
  | ledger e, .ledger call => some (call.failed e)
  | store e, .store call => some (call.failed e)
  | _, _ => none

def Call.kept : Call → Bool
  | ledger _ | store _ => true
  | _ => false

def Call.about : Call → Option TransactionId
  | .ledger (.mutate _ _ _ operation) => some operation.transaction
  | .store (.get id) | .store (.markProcessing id) | .store (.advanceStep id _)
  | .store (.finalize id _) => some id
  | _ => none

inductive Effect where
  | nothing
  | applied (row : AppliedRow)
  | inserted (record : TransactionRecord)
  | wrote (id : TransactionId) (write : Write)
deriving DecidableEq

/-- The stored record that was changed, or whose rows were. -/
def Effect.about : Effect → Option TransactionId
  | nothing | inserted _ => none
  | applied row => some row.operation.transaction
  | wrote id _ => some id

def Call.effect : (call : Call) → Flow.Outcome call.Answer → Effect
  | .ledger (.mutate direction id amount operation), .value (.ok .applied) =>
    .applied ⟨operation, id, direction.delta amount⟩
  | .store (.insert _), .value (.ok (.inserted r)) => .inserted r
  | .store (.markProcessing id), .value (.ok true) => .wrote id .take
  | .store (.advanceStep id step), .value (.ok true) => .wrote id (.advance step)
  | .store (.finalize id fin), .value (.ok true) => .wrote id (.close fin)
  | _, _ => .nothing

inductive Reply where
  /-- The call is carried out at an instant and its outcome is answered. -/
  | served (now : Instant)
  /-- The call fails and changes nothing. -/
  | refused (failure : Failure)
  /-- The call is carried out, but its caller is told of a failure. -/
  | lost (now : Instant) (failure : Failure)
  /-- An answer of the surroundings that keep neither money nor records. -/
  | elsewhere (call : Call) (answer : call.Answer)

namespace Reply

def arrives : Reply → Bool
  | lost .. => false
  | served _ | refused _ | elsewhere .. => true

def storeFails : Reply → Bool
  | refused (.store _) | lost _ (.store _) => true
  | _ => false

/-- The store did not fail, and if the ledger did, it moved nothing. -/
def steady (reply : Reply) : Bool := reply.arrives && !reply.storeFails

end Reply

namespace Stores

def carry (σ : Stores) (now : Instant) : (call : Call) → Option (Flow.Outcome call.Answer × Stores)
  | .ledger call =>
    let (outcome, book) := Book.answer call σ.book
    some (outcome, { σ with book })
  | .store call =>
    let (outcome, table) := TransactionTable.answer now call σ.table
    some (outcome, { σ with table })
  | _ => none

def meet (σ : Stores) (call : Call) : Reply → Option (Flow.Outcome call.Answer × Effect × Stores)
  | .served now => (σ.carry now call).map fun (outcome, σ) => (outcome, call.effect outcome, σ)
  | .refused failure => (failure.answer? call).map fun a => (.value a, .nothing, σ)
  | .lost now failure =>
    (failure.answer? call).bind fun a =>
      (σ.carry now call).map fun (outcome, σ) => (.value a, call.effect outcome, σ)
  | .elsewhere other a =>
    if h : other = call ∧ call.kept = false then some (.value (h.1 ▸ a), .nothing, σ) else none

section

variable {σ σ' : Stores} {call : Call} {reply : Reply} {eff : Effect} {now : Instant}

/-- A call left the stores alone, or it was carried out and its answer may have been lost. -/
theorem meet_cases {outcome : Flow.Outcome call.Answer}
    (h : σ.meet call reply = some (outcome, eff, σ')) :
    (eff = .nothing ∧ σ' = σ ∧ ∃ a, outcome = .value a ∧
      ((∃ f, reply = .refused f ∧ f.answer? call = some a) ∨ call.kept = false)) ∨
    ∃ now real, σ.carry now call = some (real, σ') ∧ eff = call.effect real ∧
      ((reply = .served now ∧ outcome = real) ∨
        ∃ f a, reply = .lost now f ∧ f.answer? call = some a ∧ outcome = .value a) := by
  cases reply with
  | served now =>
    obtain ⟨⟨real, τ⟩, hc, he⟩ := Option.map_eq_some_iff.mp h
    cases he
    exact .inr ⟨now, _, hc, rfl, .inl ⟨rfl, rfl⟩⟩
  | refused f =>
    obtain ⟨a, ha, he⟩ := Option.map_eq_some_iff.mp h
    cases he
    exact .inl ⟨rfl, rfl, a, rfl, .inl ⟨f, rfl, ha⟩⟩
  | lost now f =>
    obtain ⟨a, ha, hm⟩ := Option.bind_eq_some_iff.mp h
    obtain ⟨⟨real, τ⟩, hc, he⟩ := Option.map_eq_some_iff.mp hm
    cases he
    exact .inr ⟨now, real, hc, rfl, .inr ⟨f, a, rfl, ha, rfl⟩⟩
  | elsewhere other a =>
    by_cases hk : other = call ∧ call.kept = false
    · rw [meet, dif_pos hk] at h
      cases h
      exact .inl ⟨rfl, rfl, _, rfl, .inr hk.2⟩
    · rw [meet, dif_neg hk] at h
      contradiction

theorem carry_reads {outcome : Flow.Outcome call.Answer} (hc : call.writes = false)
    (h : σ.carry now call = some (outcome, σ')) : σ' = σ ∧ call.effect outcome = .nothing := by
  cases call with
  | ledger call =>
    cases call with
    | getAccount id =>
      cases h
      exact ⟨rfl, rfl⟩
    | mutate => cases hc
  | store call =>
    cases call with
    | insert | markProcessing | advanceStep | finalize => cases hc
    | get | getByKey | findStuck | history =>
      cases h
      exact ⟨rfl, rfl⟩
    | sumSpending user since =>
      simp only [carry, TransactionTable.answer] at h
      split at h <;> cases h <;> exact ⟨rfl, rfl⟩
  | limits | categories | rates | now | pause => cases h

theorem meet_reads {outcome : Flow.Outcome call.Answer} (hc : call.writes = false)
    (h : σ.meet call reply = some (outcome, eff, σ')) : eff = .nothing ∧ σ' = σ := by
  rcases meet_cases h with ⟨he, hs, _⟩ | ⟨now, real, hr, he, _⟩
  · exact ⟨he, hs⟩
  · obtain ⟨hs, hn⟩ := carry_reads hc hr
    exact ⟨he.trans hn, hs⟩

theorem meet_ledger {call : LedgerCall} {a : call.Answer}
    (h : σ.meet (.ledger call) reply = some (.value a, eff, σ')) :
    (eff = .nothing ∧ σ' = σ ∧ ∃ e, a = call.failed e) ∨
    ∃ real, Book.answer call σ.book = (real, σ'.book) ∧ σ'.table = σ.table ∧
      eff = Call.effect (.ledger call) real ∧
      (real = .value a ∨ (∃ e, a = call.failed e) ∧ reply.arrives = false) := by
  have hf : ∀ (f : Failure) (b : call.Answer), f.answer? (.ledger call) = some b →
      ∃ e, b = call.failed e := by
    intro f b hb
    cases f with
    | ledger e => exact ⟨e, (Option.some.inj hb).symm⟩
    | store e => cases hb
  rcases meet_cases h with ⟨he, hs, b, hv, hb⟩ | ⟨now, real, hc, he, ha⟩
  · cases hv
    rcases hb with ⟨f, _, hb⟩ | hk
    · exact .inl ⟨he, hs, hf f a hb⟩
    · cases hk
  · cases hc
    refine .inr ⟨_, rfl, rfl, he, ?_⟩
    rcases ha with ⟨_, ha⟩ | ⟨f, b, rfl, hb, hv⟩
    · exact .inl ha.symm
    · cases hv
      exact .inr ⟨hf f a hb, rfl⟩

theorem meet_store {call : StoreCall} {a : call.Answer}
    (h : σ.meet (.store call) reply = some (.value a, eff, σ')) :
    (eff = .nothing ∧ σ' = σ ∧ (∃ e, a = call.failed e) ∧ reply.storeFails = true) ∨
    ∃ now real, TransactionTable.answer now call σ.table = (real, σ'.table) ∧
      σ'.book = σ.book ∧ eff = Call.effect (.store call) real ∧
      (real = .value a ∨
        (∃ e, a = call.failed e) ∧ reply.arrives = false ∧ reply.storeFails = true) := by
  have hf : ∀ (f : Failure) (b : call.Answer), f.answer? (.store call) = some b →
      ∃ e, f = .store e ∧ b = call.failed e := by
    intro f b hb
    cases f with
    | ledger e => cases hb
    | store e => exact ⟨e, rfl, (Option.some.inj hb).symm⟩
  rcases meet_cases h with ⟨he, hs, b, hv, hb⟩ | ⟨now, real, hc, he, ha⟩
  · cases hv
    rcases hb with ⟨f, rfl, hb⟩ | hk
    · obtain ⟨e, rfl, ha⟩ := hf f a hb
      exact .inl ⟨he, hs, ⟨e, ha⟩, rfl⟩
    · cases hk
  · cases hc
    refine .inr ⟨now, _, rfl, rfl, he, ?_⟩
    rcases ha with ⟨_, ha⟩ | ⟨f, b, rfl, hb, hv⟩
    · exact .inl ha.symm
    · cases hv
      obtain ⟨e, rfl, ha⟩ := hf f a hb
      exact .inr ⟨⟨e, ha⟩, rfl, rfl⟩

end

inductive Moved (σ : Stores) (row : AppliedRow) (reply : Reply) :
    Except LedgerError MutationOutcome → Effect → Stores → Prop
  | applied {σ' : Stores} (fresh : row.slot ∉ σ.book.applied.map AppliedRow.slot)
      (rows : σ'.book.applied = σ.book.applied ++ [row]) (table : σ'.table = σ.table)
      (answer : reply.arrives = true → a = .ok .applied) : Moved σ row reply a (.applied row) σ'
  | unapplied
      (known : ∀ outcome, a = .ok outcome → row.slot ∈ σ.book.applied.map AppliedRow.slot) :
      Moved σ row reply a .nothing σ

inductive Wrote (σ : Stores) (id : TransactionId) (w : Write) (reply : Reply) :
    Except ServiceError Bool → Effect → Stores → Prop
  | written {σ' : Stores} (table : σ.table.Written id w true σ'.table) (book : σ'.book = σ.book)
      (answer : reply.arrives = true → a = .ok true) : Wrote σ id w reply a (.wrote id w) σ'
  | unwritten
      (answer : (a = .ok false ∧ ∀ r, σ.table.row? id = some r → w.allows r = false) ∨
        ((∃ e, a = .error e) ∧ reply.storeFails = true)) :
      Wrote σ id w reply a .nothing σ

inductive Stored (σ : Stores) (new : NewTransaction) : Effect → Stores → Prop
  | inserted {σ' : Stores} {r : TransactionRecord}
      (table : σ.table.Inserted new (.inserted r) σ'.table) (book : σ'.book = σ.book) :
      Stored σ new (.inserted r) σ'
  | unstored : Stored σ new .nothing σ

section

variable {σ σ' : Stores} {reply : Reply} {eff : Effect}

theorem meet_mutate {direction : Direction} {id : AccountId} {amount : Decimal}
    {operation : OperationId} {a : Except LedgerError MutationOutcome}
    (h : σ.meet (.ledger (.mutate direction id amount operation)) reply =
      some (.value a, eff, σ')) :
    σ.Moved ⟨operation, id, direction.delta amount⟩ reply a eff σ' := by
  rcases meet_ledger h with ⟨rfl, rfl, e, rfl⟩ | ⟨real, hr, ht, rfl, ha⟩
  · exact .unapplied fun _ ho => by cases ho
  · obtain ⟨book, table⟩ := σ'
    cases ht
    have hm := σ.book.mutate_mutated direction id amount operation
    have hb : σ.book.mutate direction id amount operation = (real, book) := hr
    rw [hb] at hm
    cases hm with
    | applied fresh rows =>
      refine .applied fresh rows rfl fun hv => ?_
      rcases ha with ha | ⟨_, hn⟩
      · cases ha
        rfl
      · rw [hv] at hn
        contradiction
    | replayed known => exact .unapplied fun _ _ => known
    | refused e =>
      refine .unapplied fun outcome ho => ?_
      rcases ha with ha | ⟨⟨e', he⟩, _⟩
      · cases ha
        cases ho
      · cases he.symm.trans ho
    | broken message =>
      refine .unapplied fun outcome ho => ?_
      rcases ha with ha | ⟨⟨e', he⟩, _⟩
      · cases ha
      · cases he.symm.trans ho

theorem meet_getAccount {id : AccountId} {a : Except LedgerError Account}
    (h : σ.meet (.ledger (.getAccount id)) reply = some (.value a, eff, σ')) :
    ∀ account, a = .ok account → account.id = id := by
  intro account ho
  rcases meet_ledger h with ⟨_, _, e, he⟩ | ⟨real, hr, _, _, ha | ⟨⟨e, he⟩, _⟩⟩
  · cases he.symm.trans ho
  · have hv : Flow.Outcome.value (σ.book.lock id) = real := congrArg Prod.fst hr
    rw [ha, ho] at hv
    exact Book.lock_id (Flow.Outcome.value.inj hv)
  · cases he.symm.trans ho

theorem meet_get {id : TransactionId} {a : Except ServiceError (Option TransactionRecord)}
    (h : σ.meet (.store (.get id)) reply = some (.value a, eff, σ')) :
    ∀ found, a = .ok found → σ.table.row? id = found := by
  intro found ho
  rcases meet_store h with ⟨_, _, ⟨e, he⟩, _⟩ | ⟨now, real, hr, _, _, ha | ⟨⟨e, he⟩, _⟩⟩
  · cases he.symm.trans ho
  · have hv : Flow.Outcome.value (.ok (σ.table.row? id)) = real := congrArg Prod.fst hr
    rw [ha, ho] at hv
    exact Except.ok.inj (Flow.Outcome.value.inj hv)
  · cases he.symm.trans ho

/-- One argument for the three conditional writes. -/
theorem wrote_of_update {id : TransactionId} {w : Write} {now : Instant}
    {a : Except ServiceError Bool} {real : Flow.Outcome (Except ServiceError Bool)}
    (hr : (.value (.ok (σ.table.update id w.allows (w.apply now)).1),
      (σ.table.update id w.allows (w.apply now)).2) = (real, σ'.table))
    (hb : σ'.book = σ.book)
    (he : ∀ done, real = .value (.ok done) → eff = if done then .wrote id w else .nothing)
    (ha : real = .value a ∨
      (∃ e, a = .error e) ∧ reply.arrives = false ∧ reply.storeFails = true) :
    σ.Wrote id w reply a eff σ' := by
  have hw := σ.table.update_written id w now
  rcases hu : σ.table.update id w.allows (w.apply now) with ⟨done, table⟩
  rw [hu] at hr hw
  obtain ⟨rfl, rfl⟩ := Prod.mk.inj hr
  have he := he done rfl
  subst he
  cases done with
  | true =>
    refine .written hw hb fun hv => ?_
    rcases ha with ha | ⟨_, hn, _⟩
    · exact (Flow.Outcome.value.inj ha).symm
    · rw [hv] at hn
      contradiction
  | false =>
    obtain ⟨book, table⟩ := σ'
    cases hb
    cases hw with
    | refused barred =>
      refine .unwritten ?_
      rcases ha with ha | ⟨he, _, hf⟩
      · exact .inl ⟨(Flow.Outcome.value.inj ha).symm, barred⟩
      · exact .inr ⟨he, hf⟩

theorem meet_markProcessing {id : TransactionId} {a : Except ServiceError Bool}
    (h : σ.meet (.store (.markProcessing id)) reply = some (.value a, eff, σ')) :
    σ.Wrote id .take reply a eff σ' := by
  rcases meet_store h with ⟨rfl, rfl, he, hf⟩ | ⟨now, real, hr, hb, rfl, ha⟩
  · exact .unwritten (.inr ⟨he, hf⟩)
  · refine wrote_of_update hr hb (fun done hd => ?_) ha
    subst hd
    cases done <;> rfl

theorem meet_advanceStep {id : TransactionId} {step : TransactionStep}
    {a : Except ServiceError Bool}
    (h : σ.meet (.store (.advanceStep id step)) reply = some (.value a, eff, σ')) :
    σ.Wrote id (.advance step) reply a eff σ' := by
  rcases meet_store h with ⟨rfl, rfl, he, hf⟩ | ⟨now, real, hr, hb, rfl, ha⟩
  · exact .unwritten (.inr ⟨he, hf⟩)
  · refine wrote_of_update hr hb (fun done hd => ?_) ha
    subst hd
    cases done <;> rfl

theorem meet_finalize {id : TransactionId} {fin : Finalization} {a : Except ServiceError Bool}
    (h : σ.meet (.store (.finalize id fin)) reply = some (.value a, eff, σ')) :
    σ.Wrote id (.close fin) reply a eff σ' := by
  rcases meet_store h with ⟨rfl, rfl, he, hf⟩ | ⟨now, real, hr, hb, rfl, ha⟩
  · exact .unwritten (.inr ⟨he, hf⟩)
  · refine wrote_of_update hr hb (fun done hd => ?_) ha
    subst hd
    cases done <;> rfl

theorem meet_insert {new : NewTransaction} {a : Except ServiceError InsertOutcome}
    (hs : σ.table.Sound) (h : σ.meet (.store (.insert new)) reply = some (.value a, eff, σ')) :
    σ.Stored new eff σ' := by
  rcases meet_store h with ⟨rfl, rfl, _, _⟩ | ⟨now, real, hr, hb, rfl, _⟩
  · exact .unstored
  · have hi := hs.inserted new now
    rcases hu : σ.table.insert new now with ⟨outcome, table⟩
    rw [hu] at hi
    obtain ⟨rfl, ht⟩ : .value (.ok outcome) = real ∧ table = σ'.table := by
      simpa [TransactionTable.answer, hu] using hr
    subst ht
    cases outcome with
    | inserted r => exact .inserted hi hb
    | duplicateKey =>
      obtain ⟨book, table⟩ := σ'
      cases hb
      cases hi
      exact .unstored

/-- A call that breaks off changes nothing. -/
theorem meet_panic {call : Call} {message : String}
    (h : σ.meet call reply = some (.panic message, eff, σ')) : eff = .nothing ∧ σ' = σ := by
  cases hw : call.writes with
  | false => exact meet_reads hw h
  | true =>
    rcases meet_cases h with ⟨he, hs, _⟩ | ⟨now, real, hc, rfl, ⟨_, rfl⟩ | ⟨_, _, _, _, hv⟩⟩
    · exact ⟨he, hs⟩
    · cases call with
      | ledger call =>
        cases call with
        | getAccount => cases hw
        | mutate direction id amount operation =>
          have hm := σ.book.mutate_mutated direction id amount operation
          rcases hu : σ.book.mutate direction id amount operation with ⟨outcome, book⟩
          simp only [carry, Book.answer, hu, Option.some.injEq, Prod.mk.injEq] at hc
          obtain ⟨rfl, rfl⟩ := hc
          rw [hu] at hm
          cases hm
          exact ⟨rfl, rfl⟩
      | store call =>
        cases call with
        | insert | markProcessing | advanceStep | finalize => cases hc
        | get | getByKey | findStuck | history | sumSpending => cases hw
      | limits | categories | rates | now | pause => cases hw
    · cases hv

end

/-- The four things that can happen to the stores. -/
inductive Change (σ : Stores) : Effect → Stores → Prop
  | nothing : Change σ .nothing σ
  | applied {σ' : Stores} {row : AppliedRow}
      (fresh : row.slot ∉ σ.book.applied.map AppliedRow.slot)
      (rows : σ'.book.applied = σ.book.applied ++ [row]) (table : σ'.table = σ.table) :
      Change σ (.applied row) σ'
  | wrote {σ' : Stores} {id : TransactionId} {w : Write}
      (table : σ.table.Written id w true σ'.table) (book : σ'.book = σ.book) :
      Change σ (.wrote id w) σ'
  | inserted {σ' : Stores} {new : NewTransaction} {r : TransactionRecord}
      (table : σ.table.Inserted new (.inserted r) σ'.table) (book : σ'.book = σ.book) :
      Change σ (.inserted r) σ'

section

variable {σ σ' : Stores} {reply : Reply} {eff : Effect}

theorem Change.sound (h : σ.Change eff σ') (hs : σ.table.Sound) : σ'.table.Sound := by
  cases h with
  | nothing => exact hs
  | applied _ _ table => exact table ▸ hs
  | wrote table => exact hs.write table
  | inserted table =>
    cases table with
    | inserted _ _ _ _ sound => exact sound

theorem Moved.change {row : AppliedRow} {a : Except LedgerError MutationOutcome}
    (h : σ.Moved row reply a eff σ') :
    σ.Change eff σ' ∧ (eff = .nothing ∨ eff.about = some row.operation.transaction) := by
  cases h with
  | applied fresh rows table => exact ⟨.applied fresh rows table, .inr rfl⟩
  | unapplied => exact ⟨.nothing, .inl rfl⟩

theorem Wrote.change {id : TransactionId} {w : Write} {a : Except ServiceError Bool}
    (h : σ.Wrote id w reply a eff σ') :
    σ.Change eff σ' ∧ (eff = .nothing ∨ eff.about = some id) := by
  cases h with
  | written table book => exact ⟨.wrote table book, .inr rfl⟩
  | unwritten => exact ⟨.nothing, .inl rfl⟩

theorem Stored.change {new : NewTransaction} (h : σ.Stored new eff σ') :
    σ.Change eff σ' ∧ (eff = .nothing ∨ eff.about = none) := by
  cases h with
  | inserted table book => exact ⟨.inserted table book, .inr rfl⟩
  | unstored => exact ⟨.nothing, .inl rfl⟩

/-- Every answered call makes one of the changes, and on the record it is about. -/
theorem meet_change {call : Call} {a : call.Answer} (hs : σ.table.Sound)
    (h : σ.meet call reply = some (.value a, eff, σ')) :
    σ.Change eff σ' ∧ (eff = .nothing ∨ eff.about = call.about) := by
  cases hw : call.writes with
  | false =>
    obtain ⟨rfl, rfl⟩ := meet_reads hw h
    exact ⟨.nothing, .inl rfl⟩
  | true =>
    cases call with
    | ledger call =>
      cases call with
      | getAccount => cases hw
      | mutate => exact (meet_mutate h).change
    | store call =>
      cases call with
      | insert => exact (meet_insert hs h).change
      | markProcessing => exact (meet_markProcessing h).change
      | advanceStep => exact (meet_advanceStep h).change
      | finalize => exact (meet_finalize h).change
      | get | getByKey | findStuck | history | sumSpending => cases hw
    | limits | categories | rates | now | pause => cases hw

/-- A record is inserted as it was asked for. -/
theorem meet_inserted {call : Call} {a : call.Answer} {r : TransactionRecord}
    (h : σ.meet call reply = some (.value a, .inserted r, σ')) :
    ∃ new, call = .store (.insert new) ∧ r.payload = new := by
  rcases meet_cases h with ⟨he, _⟩ | ⟨now, real, hc, he, _⟩
  · cases he
  · unfold Call.effect at he
    split at he
    · cases he
    next =>
      cases he
      refine ⟨_, rfl, ?_⟩
      simp only [carry, TransactionTable.answer, TransactionTable.insert] at hc
      split at hc <;> cases hc
      rfl
    · cases he
    · cases he
    · cases he
    · cases he

end
end Stores
end Settlement
