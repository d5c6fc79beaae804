import Settlement.Proofs.Machine

/-!
Every idempotency key takes effect once, however many requests, recoveries and sweeps run side by
side, whichever calls fail, with or without effect, and whoever stops in between.
-/

namespace Settlement

/-- The rows that a record permits. A transfer has its debit, its credit and its refund. -/
inductive Permitted (r : TransactionRecord) : AppliedRow → Prop
  | debit {source : AccountId} (type : r.type = .transfer) (account : r.source = some source) :
      Permitted r ⟨.forward r.id, source, -r.amount⟩
  | credit {target : AccountId} (type : r.type = .transfer) (account : r.target = some target) :
      Permitted r ⟨.forward r.id, target, r.targetAmount⟩
  | refund {source : AccountId} (type : r.type = .transfer) (account : r.source = some source) :
      Permitted r ⟨.compensation r.id, source, r.amount⟩
  | deposit {target : AccountId} (type : r.type = .deposit) (account : r.target = some target) :
      Permitted r ⟨.forward r.id, target, r.amount⟩
  | withdraw {source : AccountId} (type : r.type = .withdraw) (account : r.source = some source) :
      Permitted r ⟨.forward r.id, source, -r.amount⟩

theorem permitted_of_leg {leg : Leg} {r : TransactionRecord} {row : AppliedRow}
    (hl : leg.type = r.type) (hr : leg.row? r = some row) : Permitted r row := by
  obtain ⟨account, ha, rfl⟩ := Option.map_eq_some_iff.mp hr
  cases leg with
  | debit => exact .debit hl.symm ha
  | credit => exact .credit hl.symm ha
  | refund => exact .refund hl.symm ha
  | deposit => exact .deposit hl.symm ha
  | withdraw => exact .withdraw hl.symm ha

/-- A record was there before the change, or the change inserted it. -/
theorem Stores.Change.origin {σ σ' : Stores} {eff : Effect} (h : σ.Change eff σ') :
    ∀ r' ∈ σ'.table.rows, (∃ r ∈ σ.table.rows, r.Same r') ∨ eff = .inserted r' := by
  intro r' hr
  cases h with
  | nothing => exact .inl ⟨r', hr, .refl r'⟩
  | applied fresh rows table =>
    rw [table] at hr
    exact .inl ⟨r', hr, .refl r'⟩
  | wrote table =>
    cases table with
    | written now row allowed rows =>
      rw [rows] at hr
      obtain ⟨r, hm, rfl⟩ := List.mem_map.mp hr
      refine .inl ⟨r, hm, ?_⟩
      split
      · exact (TransactionRecord.Same.refl r).apply _ now
      · exact .refl r
  | inserted table =>
    cases table with
    | inserted now row free rows =>
      rw [rows] at hr
      rcases List.mem_append.mp hr with hr | hr
      · exact .inl ⟨r', hr, .refl r'⟩
      · cases List.mem_singleton.mp hr
        exact .inr rfl

/-- Every record goes back to an insertion, and is still what was inserted then. -/
theorem Staged.inserted {stages : Nat → Stage} {σ : Stores} {past : List Event}
    (h : Staged stages σ past) :
    ∀ r ∈ σ.table.rows, ∃ e ∈ past, ∃ r₀, e.effect = .inserted r₀ ∧ r₀.Same r := by
  induction h with
  | empty => simp
  | turn hs ht hm ih =>
    intro r hr
    rcases (Stores.meet_change hs.grounded.1.sound hm).1.origin r hr with ⟨q, hq, hsame⟩ | he
    · obtain ⟨e, he, r₀, hi, h₀⟩ := ih q hq
      exact ⟨e, List.mem_cons_of_mem _ he, r₀, hi, h₀.id.trans hsame.id,
        h₀.payload.trans hsame.payload⟩
    · exact ⟨_, List.mem_cons_self, r, he, .refl r⟩
  | broke hs ih =>
    intro r hr
    obtain ⟨e, he, hi⟩ := ih r hr
    exact ⟨e, List.mem_cons_of_mem _ he, hi⟩
  | stop hs ih => exact ih
  | aside hs table rows ih =>
    intro r hr
    rw [table] at hr
    exact ih r hr

def Machine.Inserted (m : Machine) (r : TransactionRecord) : Prop :=
  ∃ e ∈ m.history, e.effect = .inserted r

/-- Each key has one record and each record one key. Every row of the ledger is one that its record
permits, with the accounts and amounts of its insertion, and no two rows share operation and account. -/
theorem effects_once {s : Service} {m : Machine} (h : Reachable s m) :
    (m.stores.table.rows.map (·.key)).Nodup ∧ (m.stores.table.rows.map (·.id)).Nodup ∧
    (∀ r ∈ m.stores.table.rows, ∃ r₀, m.Inserted r₀ ∧ r₀.Same r) ∧
    (m.stores.book.applied.map AppliedRow.slot).Nodup ∧
    ∀ row ∈ m.stores.book.applied, ∃ r₀, m.Inserted r₀ ∧ Permitted r₀ row ∧
      ∃ r ∈ m.stores.table.rows, r₀.Same r := by
  obtain ⟨stages, hm⟩ := h.matched
  have hg := hm.staged.grounded.1
  have hi : ∀ r ∈ m.stores.table.rows, ∃ r₀, m.Inserted r₀ ∧ r₀.Same r := by
    intro r hr
    obtain ⟨e, he, r₀, hi, hs⟩ := hm.staged.inserted r hr
    exact ⟨r₀, ⟨e, he, hi⟩, hs⟩
  refine ⟨hg.sound.once, hg.sound.ids, hi, hg.once, ?_⟩
  intro row hr
  obtain ⟨r, hm, leg, hl, hrow⟩ := hg.legs row hr
  obtain ⟨r₀, h₀, hs⟩ := hi r hm
  refine ⟨r₀, h₀, permitted_of_leg ?_ (Leg.row?_same hs leg ▸ hrow), r, hm, hs⟩
  rw [hl]
  exact hs.type_eq.symm

/-- A deposit of 40 whose first credit is applied although its caller is told of a conflict. -/
def contendedDeposit : List Move :=
  [.upkeep (.openAccount 1 .usd hundred), .start (.deposit ⟨1, forty, none⟩ 1 "a"),
    .answer 0 (.served 0), .answer 0 (.served 0), .answer 0 (.served 0), .answer 0 (.served 0),
    .answer 0 (.served 0), .answer 0 (.lost 0 (.ledger (.lockConflict 1))),
    .answer 0 (.elsewhere (.pause 100) ()), .answer 0 (.served 0), .answer 0 (.served 0),
    .answer 0 (.served 0)]

theorem effects_once_contendedDeposit :
    ∃ m, Machine.play plainService {} contendedDeposit = some m ∧
      m.stores.book.applied = [⟨.forward 1, 1, forty⟩] ∧
      ∀ row ∈ m.stores.book.applied, ∃ r₀, m.Inserted r₀ ∧ Permitted r₀ row := by
  have hp : (Machine.play plainService {} contendedDeposit).map (·.stores.book.applied) =
      some [⟨.forward 1, 1, forty⟩] := by decide +kernel
  obtain ⟨m, hm, hb⟩ := Option.map_eq_some_iff.mp hp
  refine ⟨m, hm, hb, fun row hr => ?_⟩
  obtain ⟨r₀, hi, hp, _⟩ := (effects_once (Reachable.empty.play hm)).2.2.2.2 row hr
  exact ⟨r₀, hi, hp⟩

end Settlement
