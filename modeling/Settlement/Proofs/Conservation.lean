import Mathlib.Algebra.BigOperators.Group.List.Basic
import Mathlib.Tactic.Linarith
import Settlement.Proofs.ExactlyOnce
import Settlement.Proofs.Sequential

/-!
Money is conserved. What the balances of a book add up to is what was opened with and what the applied
rows moved. The rows of a record add up to what its state says is on its way, in or out, as long as all
accounts have one currency.
-/

namespace Settlement

theorem sum_map_filter {α : Type} (l : List α) (p : α → Prop) [DecidablePred p] (f : α → ℚ) :
    ((l.filter p).map f).sum = (l.map fun x => if p x then f x else 0).sum := by
  simp [List.sum_map_ite]

/-- A sum is the sum over all keys of what is under each. -/
theorem sum_fibers {α : Type} (l : List α) (key : α → Int) (f : α → ℚ) {keys : List Int}
    (hn : keys.Nodup) (hk : ∀ x ∈ l, key x ∈ keys) :
    (keys.map fun k => ((l.filter (key · == k)).map f).sum).sum = (l.map f).sum := by
  induction l with
  | nil => simp
  | cons x l ih =>
    have hx : ∀ k, (((x :: l).filter (key · == k)).map f).sum =
        (if k = key x then f x else 0) + ((l.filter (key · == k)).map f).sum := by
      intro k
      by_cases hkx : key x = k
      · simp [hkx]
      · simp [hkx, Ne.symm hkx]
    have hsingle : (keys.map fun k => if k = key x then f x else 0).sum = f x := by
      have := List.sum_map_ite_eq keys (fun _ => f x) (fun _ => 0) (key x)
      rw [this, List.count_eq_one_of_mem hn (hk x (by simp))]
      simp
    simp only [hx, List.sum_map_add, hsingle, List.map_cons, List.sum_cons]
    rw [ih fun y hy => hk y (by simp [hy])]

namespace Book

def total (b : Book) : ℚ := (b.accounts.map (·.balance.value)).sum

def moved (b : Book) : ℚ := (b.applied.map (·.amount.value)).sum

/-- The accounts of a currency hold what they were opened with and what was moved. -/
structure Accounted (c : Currency) (opened : ℚ) (b : Book) : Prop where
  ids : (b.accounts.map (·.id)).Nodup
  bound : ∀ a ∈ b.accounts, a.id ≤ b.accounts.length
  currency : ∀ a ∈ b.accounts, a.currency = c
  balanced : b.total = opened + b.moved

def Sums (b : Book) : Call → Prop
  | .ledger (.mutate direction id amount operation) =>
    ∀ account, b.lock id = .ok account → b.row? operation id = none →
      accept direction account amount = .ok () →
      ∃ d : Decimal, d.value = account.balance.value + (direction.delta amount).value
  | _ => True

section

variable {b : Book} {c : Currency} {opened : ℚ} {account new : Account} {id : AccountId}

/-- Writing an account changes the total by the new balance less the old one. -/
theorem total_put (hn : (b.accounts.map (·.id)).Nodup) (ha : account ∈ b.accounts)
    (hi : new.id = account.id) :
    (b.put new).total = b.total + (new.balance.value - account.balance.value) := by
  have hif : ∀ x ∈ b.accounts, (if x.id = new.id then new else x).balance.value =
      if x = account then new.balance.value else x.balance.value := by
    intro x hx
    have he : x.id = new.id ↔ x = account := by
      rw [hi]
      exact ⟨List.inj_on_of_nodup_map hn hx ha, congrArg _⟩
    simp only [he]
    split <;> rfl
  unfold total put
  rw [List.map_map]
  show (b.accounts.map fun x => (if x.id = new.id then new else x).balance.value).sum = _
  rw [List.map_congr_left hif,
    List.sum_map_ite_eq b.accounts (fun _ => new.balance.value) (·.balance.value) account,
    List.count_eq_one_of_mem (List.Nodup.of_map _ hn) ha, one_nsmul, add_comm]

theorem mem_put {a : Account} (h : a ∈ (b.put new).accounts) : a = new ∨ a ∈ b.accounts := by
  obtain ⟨x, hx, rfl⟩ := List.mem_map.mp h
  split
  · exact .inl rfl
  · exact .inr hx

/-- An account is written over one of its currency, and rows are added for the difference. -/
theorem Accounted.put (h : b.Accounted c opened) (ha : account ∈ b.accounts) (new : Account)
    (hi : new.id = account.id) (hc : new.currency = account.currency) (rows : List AppliedRow)
    (hr : (rows.map (·.amount.value)).sum = new.balance.value - account.balance.value) :
    Accounted c opened { b.put new with applied := b.applied ++ rows } := by
  have hlen : (b.put new).accounts.length = b.accounts.length := List.length_map _
  refine ⟨?_, fun a hm => ?_, fun a hm => ?_, ?_⟩
  · show ((b.put new).accounts.map (·.id)).Nodup
    rw [put_ids]
    exact h.ids
  · show a.id ≤ (b.put new).accounts.length
    rw [hlen]
    rcases mem_put hm with rfl | hm
    · exact hi ▸ h.bound account ha
    · exact h.bound a hm
  · rcases mem_put hm with rfl | hm
    · exact hc.trans (h.currency account ha)
    · exact h.currency a hm
  · have hmoved : moved { b.put new with applied := b.applied ++ rows } =
        b.moved + (new.balance.value - account.balance.value) := by
      simp only [moved, List.map_append, List.sum_append, hr]
    rw [hmoved]
    show (b.put new).total = _
    rw [total_put h.ids ha hi, h.balanced, add_assoc]

/-- A mutation whose sum is exact keeps the book in balance. -/
theorem Accounted.mutate (h : b.Accounted c opened) {direction : Direction} {amount : Decimal}
    {operation : OperationId} (hs : b.Sums (.ledger (.mutate direction id amount operation))) :
    (b.mutate direction id amount operation).2.Accounted c opened := by
  unfold Book.mutate
  split
  · exact h
  split
  · exact h
  next account hl =>
    split
    · exact h
    next hn =>
      split
      · exact h
      next ha =>
        have hrow : b.row? operation id = none := by
          cases hr : b.row? operation id with
          | none => rfl
          | some row => exact absurd (by simp [hr]) hn
        obtain ⟨d, hd⟩ := hs account hl hrow ha
        obtain ⟨sum, hsum, hv⟩ := Decimal.add_exact hd
        rw [hsum]
        exact h.put (lock_mem hl) { account with balance := sum } rfl rfl
          [⟨operation, id, direction.delta amount⟩] (by simp [hv])

theorem Accounted.openAccount (h : b.Accounted c opened) (owner : UserId) (balance : Decimal) :
    (b.openAccount owner c balance).2.Accounted c (opened + balance.value) := by
  have hfresh : ∀ a ∈ b.accounts, a.id ≠ (b.accounts.length : Int) + 1 := by
    intro a ha
    exact Int.ne_of_lt (Int.lt_add_one_of_le (h.bound a ha))
  refine ⟨?_, fun a ha => ?_, fun a ha => ?_, ?_⟩
  · simpa [Book.openAccount, List.nodup_append, h.ids] using hfresh
  · rcases List.mem_append.mp ha with ha | ha
    · have := Int.le_trans (h.bound a ha) (Int.le_add_of_nonneg_right Int.one_nonneg)
      simpa [Book.openAccount] using this
    · cases List.mem_singleton.mp ha
      simp [Book.openAccount]
  · rcases List.mem_append.mp ha with ha | ha
    · exact h.currency a ha
    · cases List.mem_singleton.mp ha
      rfl
  · have hb := h.balanced
    simp only [total, moved, Book.openAccount, List.map_append, List.sum_append, List.map_cons,
      List.map_nil, List.sum_cons, List.sum_nil] at hb ⊢
    linarith

theorem Accounted.closeAccount (h : b.Accounted c opened) (id : AccountId) :
    (b.closeAccount id).2.Accounted c opened := by
  unfold Book.closeAccount
  split
  · exact h
  next account hl =>
    have := h.put (lock_mem hl) { account with status := .closed } rfl rfl [] (by simp)
    rw [List.append_nil] at this
    exact this

end
end Book

def Upkeep.opening : Upkeep → ℚ
  | openAccount _ _ balance => balance.value
  | closeAccount _ | hold _ | release _ => 0

def Act.opening : Act → ℚ
  | upkeep u => u.opening
  | call .. => 0

def Act.OneCurrency (c : Currency) (act : Act) : Prop :=
  ∀ owner currency balance, act = .upkeep (.openAccount owner currency balance) → currency = c

theorem Book.Accounted.upkeep {b : Book} {c : Currency} {opened : ℚ} (h : b.Accounted c opened)
    {u : Upkeep} (hu : (Act.upkeep u).OneCurrency c) :
    (u.apply b).Accounted c (opened + u.opening) := by
  cases u with
  | openAccount owner currency balance =>
    cases hu owner currency balance rfl
    exact h.openAccount owner balance
  | closeAccount account =>
    rw [Upkeep.opening, add_zero]
    exact h.closeAccount account
  | hold account | release account =>
    rw [Upkeep.opening, add_zero]
    exact ⟨h.ids, h.bound, h.currency, h.balanced⟩

/-- Nothing is stored that credits something else than it debits, as long as accounts are said to be of
one currency. -/
def Terms.level (c : Currency) : Terms where
  may call := ∀ new, call = .store (.insert new) → new.Level
  trust
    | .ledger (.getAccount _), .ok account => account.currency = c
    | _, _ => True

theorem Terms.level_open (c : Currency) : (level c).Open where
  plain := by
    rintro call hp new rfl
    cases hp
  keep _ _ _ _ new he := by cases he

theorem Terms.level_insert {c : Currency} {new : NewTransaction} (h : (level c).Checks new) :
    (level c).may (.store (.insert new)) := by
  rintro new' ⟨⟩
  exact h.level c fun _ _ ha => ha

namespace Stores

structure Balanced (c : Currency) (opened : ℚ) (σ : Stores) : Prop where
  sound : σ.table.Sound
  accounted : σ.book.Accounted c opened
  level : ∀ r ∈ σ.table.rows, r.payload.Level

section

variable {σ σ' : Stores} {c : Currency} {opened : ℚ} {call : Call} {reply : Reply} {eff : Effect}

/-- Only a mutation that is carried out changes a book. -/
theorem meet_book {outcome : Flow.Outcome call.Answer}
    (h : σ.meet call reply = some (outcome, eff, σ')) :
    σ'.book = σ.book ∨ ∃ direction id amount operation,
      call = .ledger (.mutate direction id amount operation) ∧ reply.carries = true ∧
      σ'.book = (σ.book.mutate direction id amount operation).2 := by
  rcases meet_cases h with ⟨_, rfl, _⟩ | ⟨now, real, hc, _, hreply⟩
  · exact .inl rfl
  have hcarries : reply.carries = true := by
    rcases hreply with ⟨rfl, _⟩ | ⟨f, a, rfl, _⟩ <;> rfl
  cases call with
  | ledger call =>
    cases call with
    | getAccount id =>
      cases hc
      exact .inl rfl
    | mutate direction id amount operation =>
      cases hc
      exact .inr ⟨direction, id, amount, operation, rfl, hcarries, rfl⟩
  | store call =>
    cases hc
    exact .inl rfl
  | limits | categories | rates | now | pause => cases hc

/-- What one call keeps, and what its caller may rely on. -/
theorem Balanced.meet (h : σ.Balanced c opened) (hm : (Terms.level c).may call)
    (hs : reply.carries = true → σ.book.Sums call) {outcome : Flow.Outcome call.Answer}
    (hmeet : σ.meet call reply = some (outcome, eff, σ')) :
    σ'.Balanced c opened ∧ ∀ a, outcome = .value a → (Terms.level c).trust call a := by
  have hbook : σ'.book.Accounted c opened := by
    rcases meet_book hmeet with he | ⟨direction, id, amount, operation, rfl, hc, he⟩
    · exact he ▸ h.accounted
    · exact he ▸ h.accounted.mutate (hs hc)
  cases outcome with
  | panic message =>
    obtain ⟨_, rfl⟩ := meet_panic hmeet
    exact ⟨h, nofun⟩
  | value a =>
    have hch := (meet_change h.sound hmeet).1
    refine ⟨⟨hch.sound h.sound, hbook, fun r' hr' => ?_⟩, fun a ha => ?_⟩
    · rcases hch.origin r' hr' with ⟨r, hr, hsame⟩ | rfl
      · exact hsame.payload ▸ h.level r hr
      · obtain ⟨new, hcall, hnew⟩ := meet_inserted hmeet
        exact hnew ▸ hm new hcall
    · cases ha
      unfold Terms.level
      dsimp only
      split
      next id account =>
        rcases meet_ledger hmeet with ⟨_, _, e, he⟩ | ⟨real, hr, _, _, hreal | ⟨⟨e, he⟩, _⟩⟩
        · cases he
        · have hv : Flow.Outcome.value (σ.book.lock id) = real := congrArg Prod.fst hr
          rw [hreal] at hv
          exact h.accounted.currency account (Book.lock_mem (Flow.Outcome.value.inj hv))
        · cases he
      · trivial

theorem Balanced.live {s : Service} {acts : List Act} (h : σ.Balanced c opened)
    (hc : ∀ act ∈ acts, act.OneCurrency c)
    (hv : ∀ v ∈ σ.visits s acts, v.1.book.Sums v.2) (hl : σ.live s acts = some σ') :
    σ'.Balanced c (opened + (acts.map Act.opening).sum) := by
  induction acts generalizing σ opened with
  | nil =>
    cases hl
    simpa using h
  | cons act acts ih =>
    obtain ⟨τ, hact, hl⟩ := Option.bind_eq_some_iff.mp hl
    rw [Stores.visits, hact] at hv
    have hτ : τ.Balanced c (opened + act.opening) := by
      cases act with
      | call job replies =>
        rw [Act.opening, add_zero]
        have hx := job.under (Terms.level_open c) (fun _ _ => Terms.level_insert) s
        refine hx.alone (fun σ call => σ.book.Sums call)
          (fun hσ hm hs hmeet => hσ.meet hm hs hmeet) (fun v hm => ?_) h hact
        exact hv v (List.mem_append_left _ hm)
      | upkeep u =>
        cases hact
        exact ⟨h.sound, h.accounted.upkeep (hc _ (by simp)), h.level⟩
    have := ih hτ (fun act hm => hc act (by simp [hm]))
      (fun v hm => hv v (List.mem_append_right _ hm)) hl
    rwa [List.map_cons, List.sum_cons, ← add_assoc]

end
end Stores

/-- What the state of a record says that its accounts have got together. -/
def TransactionRecord.net (r : TransactionRecord) : ℚ :=
  match r.type, r.status, r.step, r.compensation with
  | .deposit, .completed, _, _ => r.amount.value
  | .withdraw, .completed, _, _ => -r.amount.value
  | .transfer, .processing, .debitDone, _ => -r.amount.value
  | .transfer, .failed, _, .failed => -r.amount.value
  | _, _, _, _ => 0

/-- The rows of a record add up to what its state says. -/
theorem net_of_tells {r : TransactionRecord} {legs : List Leg} (h : r.Tells legs)
    (hw : r.payload.WellFormed) (hl : r.payload.Level)
    (hn : r.status = .created → r.step = .none) :
    ((legs.filterMap (·.row? r)).map (·.amount.value)).sum = r.net := by
  have hrow : ∀ leg : Leg, leg.type = r.type → ∃ account, leg.row? r =
      some ⟨⟨r.id, leg.phase⟩, account, leg.direction.delta (leg.amount r.payload)⟩ := by
    intro leg ht
    obtain ⟨account, ha⟩ := hw.account ht
    exact ⟨account, Leg.row?_of_account ha⟩
  have hlevel : r.targetAmount.value = r.amount.value := hl
  unfold TransactionRecord.Tells at h
  unfold TransactionRecord.net
  generalize hty : r.type = type at h hrow ⊢
  generalize hstatus : r.status = status at h hn ⊢
  generalize hstep : r.step = step at h hn ⊢
  generalize hcomp : r.compensation = compensation at h ⊢
  cases h with
  | untouched ho =>
    cases status <;> cases type <;> simp_all [TransactionStatus.isTerminal]
  | debited ho =>
    obtain ⟨a, hd⟩ := hrow .debit rfl
    cases status with
    | created => exact absurd (hn rfl) (by simp)
    | processing => simp [hd, Leg.direction, Direction.delta, Leg.amount, Decimal.value_neg]
    | completed | failed => cases ho
  | transferred =>
    obtain ⟨a, hd⟩ := hrow .debit rfl
    obtain ⟨b, hc⟩ := hrow .credit rfl
    simp [hd, hc, Leg.direction, Direction.delta, Leg.amount, Decimal.value_neg, hlevel]
  | deposited =>
    obtain ⟨b, hd⟩ := hrow .deposit rfl
    simp [hd, Leg.direction, Direction.delta, Leg.amount]
  | withdrawn =>
    obtain ⟨a, hd⟩ := hrow .withdraw rfl
    simp [hd, Leg.direction, Direction.delta, Leg.amount, Decimal.value_neg]
  | unmoved => cases type <;> simp
  | refunded =>
    obtain ⟨a, hd⟩ := hrow .debit rfl
    obtain ⟨b, hf⟩ := hrow .refund rfl
    simp [hd, hf, Leg.direction, Direction.delta, Leg.amount, Decimal.value_neg]
  | unrefunded =>
    obtain ⟨a, hd⟩ := hrow .debit rfl
    simp [hd, Leg.direction, Direction.delta, Leg.amount, Decimal.value_neg]

/-- No step is stored of a record before an attempt was started on it. -/
theorem steps_after_take :
    Upheld (fun r _ => r.status = .created → r.step = .none) (fun r _ _ => r.status ≠ .created) where
  fresh _ _ _ _ := rfl
  deed {r r'} _ _ st st' _ _ hi hk hd := by
    cases hd with
    | pass | unread | unclosed => exact ⟨hi, nofun⟩
    | take => exact ⟨nofun, fun _ => nofun⟩
    | load => exact ⟨hi, fun _ => (hk rfl).2⟩
    | reload _ same | applied same | replayed same | contended same | refused same | barred same
    | unrecorded same =>
      exact ⟨hi, fun _ => (hk (congrArg some same.id)).2⟩
    | recorded _ same =>
      have hn := (hk (congrArg some same.id)).2
      exact ⟨fun hc => absurd hc hn, fun _ => hn⟩
    | @close _ fin _ _ _ final =>
      refine ⟨fun hc => ?_, fun h => by cases h⟩
      rw [show fin.status = .created from hc] at final
      cases final

def TransactionTable.amounts (t : TransactionTable) (p : TransactionRecord → Prop)
    [DecidablePred p] : ℚ :=
  ((t.rows.filter p).map (·.amount.value)).sum

theorem sum_net (rows : List TransactionRecord) : (rows.map TransactionRecord.net).sum =
    ((rows.filter fun r => r.type = .deposit ∧ r.status = .completed).map (·.amount.value)).sum -
    ((rows.filter fun r => r.type = .withdraw ∧ r.status = .completed).map (·.amount.value)).sum -
    ((rows.filter fun r => r.type = .transfer ∧ r.status = .processing ∧ r.step = .debitDone).map
      (·.amount.value)).sum -
    ((rows.filter fun r => r.type = .transfer ∧ r.status = .failed ∧ r.compensation = .failed).map
      (·.amount.value)).sum := by
  have hnet : ∀ r : TransactionRecord, r.net =
      (if r.type = .deposit ∧ r.status = .completed then r.amount.value else 0) -
      (if r.type = .withdraw ∧ r.status = .completed then r.amount.value else 0) -
      (if r.type = .transfer ∧ r.status = .processing ∧ r.step = .debitDone then r.amount.value
        else 0) -
      (if r.type = .transfer ∧ r.status = .failed ∧ r.compensation = .failed then r.amount.value
        else 0) := by
    intro r
    unfold TransactionRecord.net
    split
    next h₁ h₂ => simp [h₁, h₂]
    next h₁ h₂ => simp [h₁, h₂]
    next h₁ h₂ h₃ => simp [h₁, h₂, h₃]
    next h₁ h₂ h₃ => simp [h₁, h₂, h₃]
    next h₁ h₂ h₃ h₄ =>
      rw [if_neg fun h => h₁ h.1 h.2, if_neg fun h => h₂ h.1 h.2, if_neg fun h => h₃ h.1 h.2.1 h.2.2,
        if_neg fun h => h₄ h.1 h.2.1 h.2.2]
      ring
  simp only [sum_map_filter]
  induction rows with
  | nil => simp
  | cons r rows ih =>
    simp only [List.map_cons, List.sum_cons, ih, hnet r]
    ring

/-- Between the acts of a service that has the stores to itself, with accounts of one currency, a store
that never fails, a ledger whose errors mean that nothing moved, and sums that are exact: the accounts
hold what they were opened with and what completed deposits brought, less what completed withdrawals
took, what is in flight, and what failed refunds left behind. -/
theorem money_conserved {s : Service} {acts : List Act} {σ : Stores} {c : Currency}
    (hl : Stores.live s {} acts = some σ) (hs : acts.all Act.steady = true)
    (hc : ∀ act ∈ acts, act.OneCurrency c)
    (hv : ∀ v ∈ Stores.visits s {} acts, v.1.book.Sums v.2) :
    σ.book.total = (acts.map Act.opening).sum +
      σ.table.amounts (fun r => r.type = .deposit ∧ r.status = .completed) -
      σ.table.amounts (fun r => r.type = .withdraw ∧ r.status = .completed) -
      σ.table.amounts
        (fun r => r.type = .transfer ∧ r.status = .processing ∧ r.step = .debitDone) -
      σ.table.amounts
        (fun r => r.type = .transfer ∧ r.status = .failed ∧ r.compensation = .failed) := by
  have hb : σ.Balanced c (0 + (acts.map Act.opening).sum) :=
    Stores.Balanced.live ⟨TransactionTable.sound_empty,
      ⟨by simp, by simp, by simp, by simp [Book.total, Book.moved]⟩, by simp⟩ hc hv hl
  obtain ⟨hg, ht⟩ := Stores.Truthful.live (fun _ _ hr => by cases hr) Stores.grounded_empty hs hl
  obtain ⟨m, hr, rfl, hturns, harrive⟩ := Stores.live_reachable hl hs
  obtain ⟨stages, hm⟩ := hr.matched
  have hrecord : ∀ r ∈ m.stores.table.rows,
      ((m.stores.book.rowsOf r.id).map (·.amount.value)).sum = r.net := by
    intro r hr
    have hrow := hg.sound.row?_of_mem hr
    obtain ⟨legs, hrows, _, htells⟩ := ht r.id r hrow
    rw [hrows]
    exact net_of_tells (htells (by simp [Stage.about])) (hg.wellFormed r hr) (hb.level r hr)
      (hm.staged.kept steps_after_take hturns harrive r.id r hrow).1
  have hmoved : m.stores.book.moved = (m.stores.table.rows.map TransactionRecord.net).sum := by
    have hkeys : ∀ row ∈ m.stores.book.applied,
        row.operation.transaction ∈ m.stores.table.rows.map (·.id) := by
      intro row hrow
      obtain ⟨r, hr, leg, _, hlr⟩ := hg.legs row hrow
      exact List.mem_map.mpr ⟨r, hr, (Leg.row?_transaction hlr).symm⟩
    rw [Book.moved, ← sum_fibers _ (·.operation.transaction) _ hg.sound.ids hkeys, List.map_map]
    exact congrArg List.sum (List.map_congr_left hrecord)
  rw [hb.accounted.balanced, hmoved, sum_net]
  simp only [TransactionTable.amounts]
  ring

def Book.wholes (b : Book) : Call → Bool
  | .ledger (.mutate direction id amount _) =>
    match b.lock id with
    | .ok account =>
      account.balance.scale == 0 && (direction.delta amount).scale == 0 &&
        (Decimal.of? (account.balance.coefficient + (direction.delta amount).coefficient) 0).isSome
    | .error _ => true
  | _ => true

/-- Sums without places are exact. -/
theorem Book.sums_of_wholes {b : Book} {call : Call} (h : b.wholes call = true) : b.Sums call := by
  unfold Book.Sums
  split
  next direction id amount operation =>
    intro account hl _ _
    simp only [wholes, hl, Bool.and_eq_true, beq_iff_eq] at h
    obtain ⟨⟨hbalance, hdelta⟩, hsome⟩ := h
    obtain ⟨d, hd⟩ := Option.isSome_iff_exists.mp hsome
    obtain ⟨hc, hs⟩ := Decimal.of?_eq_some.mp hd
    refine ⟨d, ?_⟩
    simp [Decimal.value, hc, hs, hbalance, hdelta, tenTo_zero]
  next => trivial

/-- A deposit of 40 to account 2, then a transfer of 40 from account 1 whose credit is refused, and
whose refund is too. -/
def strandedTransfer : List Act :=
  [.upkeep (.openAccount 1 .usd hundred), .upkeep (.openAccount 2 .usd .zero),
    .call (.deposit ⟨2, forty, none⟩ 2 "d")
      [.served 0, .served 0, .served 0, .served 0, .served 0, .served 0, .served 0, .served 0],
    .call (.transfer ⟨1, 2, forty, some 1⟩ 1 "a")
      [.served 0, .served 0, .served 0,
        .elsewhere (.categories (.find 1)) (.ok (some ⟨1, none, "FOOD"⟩)),
        .elsewhere (.limits (.find 1)) (.ok (some ⟨1, hundred, hundred⟩)),
        .elsewhere .now (0 : Int), .served 0, .served 0, .served 0, .served 0, .served 0, .served 0,
        .refused (.ledger (.unavailable "down")), .refused (.ledger (.unavailable "down")),
        .served 0]]

theorem money_conserved_strandedTransfer :
    ∃ σ, Stores.live plainService {} strandedTransfer = some σ ∧
      σ.table.rows.map (fun r => (r.type, r.status, r.compensation)) =
        [(.deposit, .completed, .none), (.transfer, .failed, .failed)] ∧
      σ.book.total = (strandedTransfer.map Act.opening).sum +
        σ.table.amounts (fun r => r.type = .deposit ∧ r.status = .completed) -
        σ.table.amounts (fun r => r.type = .withdraw ∧ r.status = .completed) -
        σ.table.amounts
          (fun r => r.type = .transfer ∧ r.status = .processing ∧ r.step = .debitDone) -
        σ.table.amounts
          (fun r => r.type = .transfer ∧ r.status = .failed ∧ r.compensation = .failed) := by
  obtain ⟨σ, hσ, hr⟩ := Option.map_eq_some_iff.mp (show
    (Stores.live plainService {} strandedTransfer).map (fun σ =>
      σ.table.rows.map fun r => (r.type, r.status, r.compensation)) =
      some [(.deposit, .completed, .none), (.transfer, .failed, .failed)] by decide +kernel)
  refine ⟨σ, hσ, hr, money_conserved (c := .usd) hσ (by decide +kernel) ?_ ?_⟩
  · intro act hm owner currency balance he
    simp only [strandedTransfer, List.mem_cons, List.not_mem_nil, or_false] at hm
    rcases hm with rfl | rfl | rfl | rfl <;> cases he <;> rfl
  · have hw : (Stores.visits plainService {} strandedTransfer).all
        (fun v => v.1.book.wholes v.2) = true := by decide +kernel
    exact fun v hm => Book.sums_of_wholes (List.all_eq_true.mp hw v hm)

end Settlement
