import Settlement.Proofs.Replies

/-!
What holds of the stores whatever drivers do: every row of the ledger is a leg of a stored record, no
leg was applied twice, and what a driver works from is what was inserted.
-/

namespace Settlement

namespace Stores

def Keeps (σ σ' : Stores) : Prop :=
  ∀ id r, σ.table.row? id = some r → ∃ r', σ'.table.row? id = some r' ∧ r.Same r'

def Holds (σ : Stores) (tx : TransactionRecord) : Prop :=
  ∃ r, σ.table.row? tx.id = some r ∧ tx.Same r

structure Grounded (σ : Stores) : Prop where
  sound : σ.table.Sound
  wellFormed : ∀ r ∈ σ.table.rows, r.payload.WellFormed
  legs : ∀ row ∈ σ.book.applied,
    ∃ r ∈ σ.table.rows, ∃ leg : Leg, leg.type = r.type ∧ leg.row? r = some row
  once : (σ.book.applied.map AppliedRow.slot).Nodup

section

variable {σ σ' : Stores} {tx r : TransactionRecord} {id : TransactionId} {w : Write} {reply : Reply}
  {eff : Effect} {new : NewTransaction}

theorem Keeps.refl (σ : Stores) : σ.Keeps σ := fun _ r hr => ⟨r, hr, .refl r⟩

theorem Keeps.holds (hk : σ.Keeps σ') (h : σ.Holds tx) : σ'.Holds tx := by
  obtain ⟨r, hr, hs⟩ := h
  obtain ⟨r', hr', hs'⟩ := hk tx.id r hr
  exact ⟨r', hr', hs.id.trans hs'.id, hs.payload.trans hs'.payload⟩

theorem keeps_of_table (h : σ'.table = σ.table) : σ.Keeps σ' := by
  intro id r hr
  exact ⟨r, by rw [h, hr], .refl r⟩

/-- No change loses a record or touches what was inserted. -/
theorem Change.keeps (h : σ.Change eff σ') : σ.Keeps σ' := by
  cases h with
  | nothing => exact .refl σ
  | applied fresh rows table => exact keeps_of_table table
  | wrote table =>
    cases table with
    | written now row allowed rows =>
      intro other r hr
      refine ⟨_, by rw [TransactionTable.row?_map rows, hr]; rfl, ?_⟩
      dsimp only
      split
      · exact (TransactionRecord.Same.refl r).apply _ now
      · exact .refl r
  | inserted table =>
    cases table with
    | inserted now row free rows =>
      intro other r hr
      exact ⟨r, by rw [TransactionTable.row?_append rows, hr]; rfl, .refl r⟩

theorem Wrote.present (h : σ.Wrote id w reply (.ok true) eff σ') :
    ∃ r, σ.table.row? id = some r ∧ w.allows r := by
  cases h with
  | written table =>
    cases table with
    | written now row allowed => exact ⟨_, row, allowed⟩
  | unwritten answer =>
    rcases answer with ⟨he, _⟩ | ⟨⟨e, he⟩, _⟩
    · simp at he
    · cases he

theorem holds_of_row? (hr : σ.table.row? id = some r) : σ.Holds r := by
  have hi := (TransactionTable.mem_of_row? hr).2
  exact ⟨r, by rw [hi, hr], .refl r⟩

theorem Grounded.wellFormed_of_row? (hg : σ.Grounded) (hr : σ.table.row? id = some r) :
    r.payload.WellFormed :=
  hg.wellFormed r (TransactionTable.mem_of_row? hr).1

/-- Rows that were legs stay legs. -/
theorem Grounded.legs_kept (hg : σ.Grounded) (hk : σ.Keeps σ') :
    ∀ row ∈ σ.book.applied,
      ∃ r ∈ σ'.table.rows, ∃ leg : Leg, leg.type = r.type ∧ leg.row? r = some row := by
  intro row hm
  obtain ⟨r, hr, leg, ht, hl⟩ := hg.legs row hm
  obtain ⟨r', hr', hs⟩ := hk r.id r (hg.sound.row?_of_mem hr)
  refine ⟨r', (TransactionTable.mem_of_row? hr').1, leg, ?_, ?_⟩
  · rw [ht]
    exact hs.type_eq
  · rw [← Leg.row?_same hs, hl]

/-- Only the rows of a book matter. -/
theorem Grounded.aside (hg : σ.Grounded) (table : σ'.table = σ.table)
    (rows : σ'.book.applied = σ.book.applied) : σ'.Grounded := by
  refine ⟨table ▸ hg.sound, table ▸ hg.wellFormed, ?_, rows ▸ hg.once⟩
  rw [rows, table]
  exact hg.legs

theorem Grounded.wrote {a : Except ServiceError Bool} (hg : σ.Grounded)
    (h : σ.Wrote id w reply a eff σ') : σ'.Grounded := by
  have hk := h.change.1.keeps
  cases h with
  | unwritten => exact hg
  | written table book =>
    refine ⟨hg.sound.write table, ?_, by rw [book]; exact hg.legs_kept hk, by rw [book]; exact hg.once⟩
    cases table with
    | written now row allowed rows keys =>
      intro r hr
      rw [rows] at hr
      obtain ⟨q, hq, rfl⟩ := List.mem_map.mp hr
      have hw := hg.wellFormed q hq
      split
      · rw [Write.apply_payload]
        exact hw
      · exact hw

theorem Grounded.stored (hg : σ.Grounded) (hw : new.WellFormed) (h : σ.Stored new eff σ') :
    σ'.Grounded := by
  have hk := h.change.1.keeps
  cases h with
  | unstored => exact hg
  | inserted table book =>
    cases table with
    | inserted now row free rows sound =>
      refine ⟨sound, ?_, by rw [book]; exact hg.legs_kept hk, by rw [book]; exact hg.once⟩
      intro r hr
      rw [rows] at hr
      rcases List.mem_append.mp hr with hr | hr
      · exact hg.wellFormed r hr
      · cases List.mem_singleton.mp hr
        rw [row]
        exact hw

theorem Grounded.moved {leg : Leg} {row : AppliedRow} {a : Except LedgerError MutationOutcome}
    (hg : σ.Grounded) (ht : σ.Holds tx) (hl : leg.type = tx.type) (hr : leg.row? tx = some row)
    (h : σ.Moved row reply a eff σ') : σ'.Grounded := by
  cases h with
  | unapplied => exact hg
  | applied fresh rows table =>
    refine ⟨table ▸ hg.sound, table ▸ hg.wellFormed, ?_, ?_⟩
    · intro x hx
      rw [rows] at hx
      rcases List.mem_append.mp hx with hx | hx
      · exact hg.legs_kept (keeps_of_table table) x hx
      · cases List.mem_singleton.mp hx
        obtain ⟨r, hi, hs⟩ := ht
        refine ⟨r, table ▸ (TransactionTable.mem_of_row? hi).1, leg, ?_, ?_⟩
        · rw [hl]
          exact hs.type_eq
        · rw [← Leg.row?_same hs, hr]
    · rw [rows, List.map_append, List.map_singleton, List.nodup_append]
      refine ⟨hg.once, List.nodup_singleton _, ?_⟩
      intro x hx y hy he
      cases List.mem_singleton.mp hy
      exact fresh (he ▸ hx)

end
end Stores

def Stage.Anchored (σ : Stores) : Stage → Prop
  | idle none | ended => True
  | idle (some tx) => σ.Holds tx
  | moving leg tx | recording leg tx => σ.Holds tx ∧ leg.type = tx.type
  | taken id => ∃ r, σ.table.row? id = some r
  | settling id status _ => (∃ r, σ.table.row? id = some r) ∧ status.isTerminal = true

namespace Stage

section

variable {σ σ' : Stores} {st : Stage} {tx r : TransactionRecord} {leg : Leg}

theorem Anchored.keep (ha : st.Anchored σ) (hk : σ.Keeps σ') : st.Anchored σ' := by
  cases st with
  | idle last =>
    cases last with
    | none => trivial
    | some tx => exact hk.holds ha
  | taken id =>
    obtain ⟨r, hr⟩ := ha
    exact (hk id r hr).imp fun _ h => h.1
  | settling id status =>
    obtain ⟨⟨r, hr⟩, ht⟩ := ha
    exact ⟨(hk id r hr).imp fun _ h => h.1, ht⟩
  | moving leg tx | recording leg tx => exact ⟨hk.holds ha.1, ha.2⟩
  | ended => trivial

theorem settling_anchored {status : TransactionStatus} {compensation : CompensationStatus}
    (h : σ.Holds tx) (ht : status.isTerminal = true) :
    (settling tx.id status compensation).Anchored σ :=
  ⟨h.imp fun _ h => h.1, ht⟩

theorem begins_anchored (h : σ.Holds tx) : (begins tx).Anchored σ := by
  unfold begins
  split
  next ht _ => exact ⟨h, ht.symm⟩
  next ht _ => exact ⟨h, ht.symm⟩
  next => exact settling_anchored h rfl
  next ht => exact ⟨h, ht.symm⟩
  next ht => exact ⟨h, ht.symm⟩

theorem resumes_anchored (h : σ.Holds tx) : (resumes tx).Anchored σ := by
  unfold resumes
  split
  next ht => exact ⟨h, ht.1.symm⟩
  next => exact settling_anchored h rfl

theorem moved_anchored (h : σ.Holds tx) (hl : leg.type = tx.type) : (moved leg tx).Anchored σ := by
  cases leg with
  | debit | credit => exact ⟨h, hl⟩
  | refund | deposit | withdraw => exact settling_anchored h rfl

theorem refused_anchored (h : σ.Holds tx) (hl : leg.type = tx.type) :
    (refused leg tx).Anchored σ := by
  cases leg with
  | credit => exact ⟨h, hl⟩
  | debit | refund | deposit | withdraw => exact settling_anchored h rfl

theorem recorded_anchored (h : σ.Holds tx) (hl : leg.type = tx.type) :
    (recorded leg tx).Anchored σ := by
  cases leg with
  | debit => exact ⟨h, hl⟩
  | credit | refund | deposit | withdraw => exact settling_anchored h rfl

theorem failed_anchored (h : σ.Holds tx) (f : StrategyFailure) : (failed tx f).Anchored σ := by
  unfold failed
  split
  · exact h
  · exact settling_anchored h rfl

end
end Stage

/-- A turn leaves the stores grounded and its driver anchored. -/
theorem Stores.Grounded.turn {σ σ' : Stores} {st st' : Stage} {call : Call} {a : call.Answer}
    {reply : Reply} {eff : Effect} (hg : σ.Grounded) (ha : st.Anchored σ) (ht : Turn st call a st')
    (hm : σ.meet call reply = some (.value a, eff, σ')) : σ'.Grounded ∧ st'.Anchored σ' := by
  have hk := (Stores.meet_change hg.sound hm).1.keeps
  cases ht with
  | look hc =>
    obtain ⟨_, rfl⟩ := Stores.meet_reads hc hm
    exact ⟨hg, trivial⟩
  | insert hw => exact ⟨hg.stored hw (Stores.meet_insert hg.sound hm), trivial⟩
  | take =>
    have hw := Stores.meet_markProcessing hm
    obtain ⟨r, hr, _⟩ := hw.present
    exact ⟨hg.wrote hw, (hk _ r hr).imp fun _ h => h.1⟩
  | pass => exact ⟨hg.wrote (Stores.meet_markProcessing hm), trivial⟩
  | load =>
    obtain ⟨_, rfl⟩ := Stores.meet_reads rfl hm
    exact ⟨hg, Stage.begins_anchored (Stores.holds_of_row? (Stores.meet_get hm _ rfl))⟩
  | unread =>
    obtain ⟨_, rfl⟩ := Stores.meet_reads rfl hm
    exact ⟨hg, trivial⟩
  | reload =>
    obtain ⟨_, rfl⟩ := Stores.meet_reads rfl hm
    exact ⟨hg, Stage.resumes_anchored (Stores.holds_of_row? (Stores.meet_get hm _ rfl))⟩
  | moved hl =>
    have hw := Stores.meet_mutate hm
    refine ⟨hg.moved ha.1 ha.2 (Leg.row?_of_account hl) hw, ?_⟩
    exact Stage.moved_anchored (hk.holds ha.1) ha.2
  | contended hl =>
    have hw := Stores.meet_mutate hm
    exact ⟨hg.moved ha.1 ha.2 (Leg.row?_of_account hl) hw, hk.holds ha.1⟩
  | refused hl =>
    have hw := Stores.meet_mutate hm
    refine ⟨hg.moved ha.1 ha.2 (Leg.row?_of_account hl) hw, ?_⟩
    exact Stage.refused_anchored (hk.holds ha.1) ha.2
  | recorded =>
    exact ⟨hg.wrote (Stores.meet_advanceStep hm), Stage.recorded_anchored (hk.holds ha.1) ha.2⟩
  | unrecorded =>
    exact ⟨hg.wrote (Stores.meet_advanceStep hm), Stage.failed_anchored (hk.holds ha.1) _⟩
  | close => exact ⟨hg.wrote (Stores.meet_finalize hm), trivial⟩

end Settlement
