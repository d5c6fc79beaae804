import Settlement.Proofs.Exclusion

/-!
What holds of every record and its rows, and of the driver whose turn it is, where the drivers of a
record take turns and every answer arrives. It is enough that new records have it and that each deed
of such a driver keeps it up.
-/

namespace Settlement

/-- The deeds of drivers that take turns keep up `I` of the record, and `K` of the driver that made
the deed while it stays with the record. -/
structure Upheld (I : TransactionRecord → List AppliedRow → Prop)
    (K : TransactionRecord → List AppliedRow → Stage → Prop) : Prop where
  fresh : ∀ new id now, I (TransactionTable.fresh new id now) []
  deed : ∀ {r r' : TransactionRecord} {rows rows' : List AppliedRow} {st st' : Stage} {e : Event},
    r.payload.WellFormed → I r rows → (st.about = some r.id → st.Agrees r ∧ K r rows st) →
    Deed r rows st e st' r' rows' → I r' rows' ∧ (st'.about = some r.id → K r' rows' st')

def Kept (I : TransactionRecord → List AppliedRow → Prop)
    (K : TransactionRecord → List AppliedRow → Stage → Prop) (id : TransactionId)
    (stages : Nat → Stage) (σ : Stores) (past : List Event) : Prop :=
  ∀ r, σ.table.row? id = some r → I r (σ.book.rowsOf id) ∧
    ∀ p, lastOn id past = some p → (stages p).about = some id → K r (σ.book.rowsOf id) (stages p)

section

variable {I : TransactionRecord → List AppliedRow → Prop}
  {K : TransactionRecord → List AppliedRow → Stage → Prop} {id : TransactionId}
  {stages : Nat → Stage} {σ σ' : Stores} {past : List Event} {st : Stage} {p : Nat} {e : Event}
  {call : Call} {a : call.Answer} {reply : Reply} {eff : Effect} {r r' : TransactionRecord}

/-- Nothing changes for the record when a task that does not stay with it makes some other call. -/
theorem Kept.aloof (hk : Kept I K id stages σ past) (hp : e.task = p) (hst : st.about ≠ some id)
    (hr : σ.table.row? id = some r) : ∀ q, lastOn id (e :: past) = some q →
      (Function.update stages p st q).about = some id →
      K r (σ.book.rowsOf id) (Function.update stages p st q) := by
  intro q hl hab
  obtain ⟨hne, heq⟩ := about_update hst hab
  rw [heq] at hab ⊢
  refine (hk r hr).2 q ?_ hab
  by_cases hw : e.worksOn = some id
  · rw [lastOn_cons_self hw, hp] at hl
    exact absurd (Option.some.inj hl).symm hne
  · rwa [lastOn_cons_ne hw] at hl

/-- A deed of the driver whose turn it is. -/
theorem Kept.deed (hk : Kept I K id stages σ past) (hu : Upheld I K)
    (hx : Exclusive id stages σ past) (hg : σ.Grounded)
    (ht : takesTurns (⟨p, call, reply, eff⟩ :: past) = true)
    (hm : σ.meet call reply = some (.value a, eff, σ')) (hr : σ.table.row? id = some r)
    (hr' : σ'.table.row? id = some r') (hc : call.about = some id)
    (hd : Deed r (σ.book.rowsOf id) (stages p) ⟨p, call, reply, eff⟩ st r' (σ'.book.rowsOf id)) :
    Kept I K id (Function.update stages p st) σ' (⟨p, call, reply, eff⟩ :: past) := by
  have hid := (TransactionTable.mem_of_row? hr).2
  obtain ⟨hi, hlast⟩ := hk r hr
  -- What is kept up is known of the driver only if it is its turn: a call that writes takes the turn,
  -- one that reads changes neither the record nor its rows.
  have hturn : call.writes = true ∨ lastOn id past = some p →
      I r' (σ'.book.rowsOf id) ∧ (st.about = some r.id → K r' (σ'.book.rowsOf id) st) := by
    intro hw
    refine hu.deed (hg.wellFormed_of_row? hr) hi ?_ hd
    intro hab
    rw [hid] at hab
    have hw : Event.worksOn ⟨p, call, reply, eff⟩ = some id ∨ lastOn id past = some p :=
      hw.imp_left fun hw => Exclusive.worksOn_of_writes hc hw
    exact ⟨hx.turn_agrees ht hw hr hab, hlast p (hx.turn_last ht hw hab) hab⟩
  intro q hq
  cases Stores.row?_unique hr' hq
  cases hw : call.writes with
  | true =>
    refine ⟨(hturn (.inl hw)).1, fun q hl hab => ?_⟩
    rw [lastOn_cons_self (Exclusive.worksOn_of_writes hc hw)] at hl
    cases hl
    rw [Function.update_self] at hab ⊢
    exact (hturn (.inl hw)).2 (hid ▸ hab)
  | false =>
    obtain ⟨_, rfl⟩ := Stores.meet_reads hw hm
    cases Stores.row?_unique hr hr'
    refine ⟨hi, fun q hl hab => ?_⟩
    rw [lastOn_cons_ne (Exclusive.worksOn_of_reads hw)] at hl
    by_cases hqp : q = p
    · subst hqp
      rw [Function.update_self] at hab ⊢
      exact (hturn (.inr hl)).2 (hid ▸ hab)
    · rw [Function.update_of_ne hqp] at hab ⊢
      exact hlast q hl hab

end

/-- Where drivers take turns and every answer arrives, what their deeds keep up holds. -/
theorem Staged.kept {I : TransactionRecord → List AppliedRow → Prop}
    {K : TransactionRecord → List AppliedRow → Stage → Prop} (hu : Upheld I K)
    {stages : Nat → Stage} {σ : Stores} {past : List Event} (h : Staged stages σ past)
    (ht : takesTurns past = true) (ha : past.all (·.reply.arrives) = true) (id : TransactionId) :
    Kept I K id stages σ past := by
  induction h with
  | empty =>
    intro r hr
    cases hr
  | @turn stages σ σ' past p call a st reply eff hs hturn hm ih =>
    simp only [List.all_cons, Bool.and_eq_true] at ha
    have hk := ih (takesTurns_tail ht) ha.2
    obtain ⟨hg, han⟩ := hs.grounded
    have hch := (Stores.meet_change hg.sound hm).1
    rcases hg.turn_cases (han p) hturn hm ha.1 p id with ⟨r, r', hr, hr', hc, hd⟩ | ⟨he, hst, _⟩
    · exact hk.deed hu (hs.exclusive (takesTurns_tail ht) ha.2 id) hg ht hm hr hr' hc hd
    intro r' hr'
    cases hr : σ.table.row? id with
    | some r =>
      obtain ⟨hq, hrows⟩ := hch.frame he hr
      cases Stores.row?_unique hq hr'
      rw [hrows]
      exact ⟨(hk _ hr).1, hk.aloof rfl hst hr⟩
    | none =>
      obtain ⟨⟨new, now, hf⟩, hbook⟩ := hch.fresh hr hr'
      rw [hbook, hg.rowsOf_eq_nil hr, hf]
      refine ⟨hu.fresh new _ now, fun q _ hab => ?_⟩
      rw [(about_update hst hab).2] at hab
      obtain ⟨r, hq⟩ := (han q).present hab
      rw [hr] at hq
      cases hq
  | @broke stages σ past p call reply hs ih =>
    simp only [List.all_cons, Bool.and_eq_true] at ha
    have hk := ih (takesTurns_tail ht) ha.2
    exact fun r hr => ⟨(hk r hr).1, hk.aloof rfl (by simp [Stage.about]) hr⟩
  | @stop stages σ past p hs ih =>
    have hk := ih ht ha
    refine fun r hr => ⟨(hk r hr).1, fun q hl hab => ?_⟩
    have heq := (about_update (by simp [Stage.about]) hab).2
    rw [heq] at hab ⊢
    exact (hk r hr).2 q hl hab
  | aside hs table rows ih =>
    have hk := ih ht ha
    intro r hr
    rw [table] at hr
    unfold Book.rowsOf
    rw [rows]
    exact hk r hr

end Settlement
