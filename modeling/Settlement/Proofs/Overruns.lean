import Settlement.Proofs.Figures
import Settlement.Proofs.Movements
import Settlement.Proofs.Refusals

/-!
Where requests and sweeps break off: at sums, products and instants that are too wide. Main statement:
a run breaks off exactly if one of its calls finds such a sum in the stores, or if what it was told
makes one in the program itself.
-/

namespace Settlement

open Decimal (TooWide)

/-- The mutation would be applied, but no number has room for the new balance. -/
structure Book.Overruns (b : Book) (direction : Direction) (id : AccountId) (amount : Decimal)
    (operation : OperationId) (account : Account) : Prop where
  positive : ¬amount ≤ Decimal.zero
  free : b.lock id = .ok account
  fresh : (operation, id) ∉ b.applied.map AppliedRow.slot
  accepted : accept direction account amount = .ok ()
  wide : TooWide (account.balance.value + (direction.delta amount).value)

def Decimal.Overruns (ds : List Decimal) : Prop :=
  ∃ front d rest sum, ds = front ++ d :: rest ∧ Decimal.sum front = some sum ∧
    TooWide (sum.value + d.value)

def Stores.Overruns (σ : Stores) : Call → Prop
  | .ledger (.mutate direction id amount operation) =>
    ∃ account, σ.book.Overruns direction id amount operation account
  | .store (.sumSpending user since) => Decimal.Overruns (σ.table.spending user since)
  | _ => False

theorem Book.mutate_breaks_iff {b : Book} {direction : Direction} {id : AccountId} {amount : Decimal}
    {operation : OperationId} :
    (∃ message, (b.mutate direction id amount operation).1 = .panic message) ↔
      ∃ account, b.Overruns direction id amount operation account := by
  unfold mutate
  split
  next hp => exact iff_of_false (by simp) fun ⟨_, h⟩ => h.positive hp
  next hp =>
    split
    next e hl => exact iff_of_false (by simp) fun ⟨_, h⟩ => by cases hl.symm.trans h.free
    next account hl =>
      have hsame : ∀ {a}, b.Overruns direction id amount operation a → a = account :=
        fun h => Except.ok.inj (h.free.symm.trans hl)
      split
      next hr =>
        exact iff_of_false (by simp) fun ⟨_, h⟩ => h.fresh (b.row?_isSome.mp hr)
      next hr =>
        split
        next e ha =>
          refine iff_of_false (by simp) fun ⟨a, h⟩ => ?_
          obtain rfl := hsame h
          cases ha.symm.trans h.accepted
        next ha =>
          split
          next hs =>
            exact iff_of_true ⟨_, rfl⟩
              ⟨account, hp, hl, mt b.row?_isSome.mpr hr, ha, Decimal.add_eq_none.mp hs⟩
          next balance hs =>
            refine iff_of_false (by simp) fun ⟨a, h⟩ => ?_
            obtain rfl := hsame h
            cases hs.symm.trans (Decimal.add_eq_none.mpr h.wide)

/-- On an account without debt only a credit can be too wide. -/
theorem Book.Overruns.is_credit {b : Book} {direction : Direction} {id : AccountId} {amount : Decimal}
    {operation : OperationId} {account : Account}
    (h : b.Overruns direction id amount operation account) (hs : Decimal.zero ≤ account.balance) :
    direction = .credit := by
  cases direction with
  | credit => rfl
  | debit =>
    have hcovered := Book.sum_nonneg h.positive (Book.accept_iff.mp h.accepted).2 hs
    have hp := Decimal.not_le.mp h.positive
    have hd := ((Direction.signs_delta .debit amount).debit rfl).2
    rw [Decimal.lt_iff_value, Decimal.value_zero] at hp
    rw [Decimal.le_iff_value, Decimal.value_zero] at hs
    refine absurd (Decimal.tooWide_mono h.wide ?_) (Decimal.value_fits account.balance)
    rw [abs_of_nonneg hcovered, abs_of_nonneg hs]
    linarith

namespace Decimal

theorem foldlM_eq_none {ds : List Decimal} {start : Decimal} : ds.foldlM add start = none ↔
    ∃ front d rest sum, ds = front ++ d :: rest ∧ front.foldlM add start = some sum ∧
      sum.add d = none := by
  induction ds generalizing start with
  | nil => simp
  | cons e ds ih =>
    rw [List.foldlM_cons]
    cases he : start.add e with
    | none => exact iff_of_true rfl ⟨[], e, ds, start, rfl, rfl, he⟩
    | some next =>
      refine ih.trans ⟨?_, ?_⟩
      · rintro ⟨front, d, rest, sum, rfl, hsum, hd⟩
        refine ⟨e :: front, d, rest, sum, rfl, ?_, hd⟩
        rw [List.foldlM_cons, he]
        exact hsum
      · rintro ⟨front, d, rest, sum, heq, hsum, hd⟩
        cases front with
        | nil =>
          cases heq
          cases hsum
          cases he.symm.trans hd
        | cons f front =>
          cases heq
          rw [List.foldlM_cons, he] at hsum
          exact ⟨front, d, rest, sum, rfl, hsum, hd⟩

theorem sum_breaks_iff {ds : List Decimal} : sum ds = none ↔ Overruns ds := by
  rw [sum, foldlM_eq_none]
  simp only [Overruns, sum, add_eq_none]

end Decimal

theorem Stores.carry_breaks_iff {σ σ' : Stores} {now : Instant} {call : Call}
    {outcome : Flow.Outcome call.Answer} (h : σ.carry now call = some (outcome, σ')) :
    (∃ message, outcome = .panic message) ↔ σ.Overruns call := by
  cases call with
  | ledger call =>
    cases call with
    | getAccount id =>
      cases h
      exact iff_of_false (by simp) fun h => h
    | mutate direction id amount operation =>
      cases h
      exact Book.mutate_breaks_iff
  | store call =>
    cases call with
    | sumSpending user since =>
      rw [Stores.Overruns, ← Decimal.sum_breaks_iff]
      simp only [carry, TransactionTable.answer] at h
      split at h
      next sum hs =>
        cases h
        exact iff_of_false (by simp) (by simp [hs])
      next hs =>
        cases h
        exact iff_of_true ⟨_, rfl⟩ hs
    | insert | get | getByKey | markProcessing | advanceStep | finalize | findStuck | history =>
      cases h
      exact iff_of_false (by simp) fun h => h
  | limits | categories | rates | now | pause => cases h

/-- The stores meet the call as it was met, and find a sum in it that is too wide. -/
def Stores.BreaksOff (σ : Stores) (m : Met) : Prop :=
  ∃ now, m.reply = .served now ∧ σ.meet m.call m.reply = some (m.outcome, m.effect, σ) ∧
    σ.Overruns m.call

theorem Stores.breaksOff_of_panic {σ : Stores} {m : Met} {message : String}
    (h : σ.meet m.call m.reply = some (m.outcome, m.effect, σ)) (hp : m.outcome = .panic message) :
    σ.BreaksOff m := by
  rcases meet_cases h with ⟨-, -, a, ha, -⟩ | ⟨now, real, hc, -, ⟨hr, ho⟩ | ⟨_, a, -, -, ha⟩⟩
  · cases hp.symm.trans ha
  · exact ⟨now, hr, h, (carry_breaks_iff hc).mp ⟨message, ho.symm.trans hp⟩⟩
  · cases hp.symm.trans ha

theorem Stores.BreaksOff.panics {σ : Stores} {m : Met} (h : σ.BreaksOff m) :
    ∃ message, m.outcome = .panic message := by
  obtain ⟨now, hr, hm, ho⟩ := h
  rw [hr] at hm
  obtain ⟨⟨real, τ⟩, hc, he⟩ := Option.map_eq_some_iff.mp hm
  obtain ⟨message, hp⟩ := (carry_breaks_iff hc).mpr ho
  refine ⟨message, ?_⟩
  rw [← hp]
  exact (congrArg Prod.fst he).symm

/-- Where nobody is in debt, only a credit or what was spent can be too wide. -/
theorem Stores.BreaksOff.call_cases {σ : Stores} {m : Met} (h : σ.BreaksOff m)
    (hs : ∀ account ∈ σ.book.accounts, Decimal.zero ≤ account.balance) :
    (∃ id amount operation, m.call = .ledger (.mutate .credit id amount operation)) ∨
      ∃ user since, m.call = .store (.sumSpending user since) := by
  obtain ⟨-, -, -, hover⟩ := h
  cases hc : m.call with
  | ledger call =>
    rw [hc] at hover
    cases call with
    | getAccount => exact hover.elim
    | mutate direction id amount operation =>
      obtain ⟨account, hb⟩ := hover
      obtain rfl := hb.is_credit (hs account (Book.lock_mem hb.free))
      exact .inl ⟨id, amount, operation, rfl⟩
  | store call =>
    rw [hc] at hover
    cases call with
    | sumSpending user since => exact .inr ⟨user, since, rfl⟩
    | insert | get | getByKey | markProcessing | advanceStep | finalize | findStuck | history =>
      exact hover.elim
  | limits | categories | rates | now | pause =>
    rw [hc] at hover
    exact hover.elim

def Job.Overruns : Job → Figures → Prop
  | transfer request _ _, h => h.TransferOver request.amount
  | withdraw request _ _, h => h.SpentOver request.amount
  | sweep settings, h => h.CutoffOver settings.processingTimeoutSecs
  | deposit .., _ | recover _, _ => False

theorem Service.Breaks.tells {p : Program ε α} {wide : Figures → Prop} {h : Figures}
    (hp : Breaks p wide h) : (p.run >>= fun _ => Flow.done ()).Tells hearing
      (fun h outcome => (∃ message, outcome = .panic message) ↔ wide h) h := by
  rw [Flow.tells_bind]
  refine Flow.Tells.mono hp fun h outcome hh => ?_
  rcases outcome with (_ | _) | message
  · exact iff_of_false (by simp) hh
  · exact iff_of_false (by simp) hh
  · exact iff_of_true ⟨message, rfl⟩ hh

theorem Job.tells (job : Job) (s : Service) : (job.task s).Tells hearing
    (fun h outcome => (∃ message, outcome = .panic message) ↔ job.Overruns h) {} := by
  cases job with
  | transfer request user key =>
    exact (Service.submit_breaks (Service.not_transferOver _) Service.newTransfer_breaks).tells
  | deposit request user key =>
    exact (Service.submit_breaks (fun hf => hf) (Service.newDeposit_calm.breaks fun hf => hf)).tells
  | withdraw request user key =>
    exact (Service.submit_breaks (Service.not_spentOver _) Service.newWithdraw_breaks).tells
  | recover id => exact (Service.recover_calm.breaks fun hf => hf).tells
  | sweep settings => exact Service.sweep_breaks.tells

/-- A run breaks off exactly if one of its calls finds a sum in the stores that is too wide, and leaves
them there, or if what the program was told makes such a sum, a product or an instant of its own: the
product of a transfer with its rate, what was spent and the amount of a transfer or a withdrawal, and
the cutoff of a sweep. Where nobody is in debt, the call is a credit, or it asks what was spent. -/
theorem breaks_off_iff {s : Service} {job : Job} {σ σ' : Stores} {mets : List Met}
    {outcome : Flow.Outcome Unit} (h : (job.task s).Runs σ mets outcome σ') :
    ((∃ message, outcome = .panic message) ↔
      (∃ m ∈ mets, σ'.BreaksOff m) ∨ job.Overruns (.ofMets mets)) ∧
    ∀ m ∈ mets, σ'.BreaksOff m →
      (∀ account ∈ σ'.book.accounts, Decimal.zero ≤ account.balance) →
      (∃ id amount operation, m.call = .ledger (.mutate .credit id amount operation)) ∨
        ∃ user since, m.call = .store (.sumSpending user since) := by
  refine ⟨?_, fun m _ hb => hb.call_cases⟩
  by_cases hm : ∃ m ∈ mets, ∃ message, m.outcome = .panic message
  · obtain ⟨m, hmem, message, hp⟩ := hm
    obtain ⟨hbroken, hmet⟩ := h.broken hmem hp
    exact iff_of_true hbroken (.inl ⟨m, hmem, Stores.breaksOff_of_panic hmet hp⟩)
  · have hwhole : ∀ m ∈ mets, ∀ message, m.outcome ≠ .panic message :=
      fun m hmem message hp => hm ⟨m, hmem, message, hp⟩
    have hnone : ¬∃ m ∈ mets, σ'.BreaksOff m := by
      rintro ⟨m, hmem, hb⟩
      obtain ⟨message, hp⟩ := hb.panics
      exact hwhole m hmem message hp
    rw [or_iff_right hnone]
    exact h.tells hwhole (job.tells s)

namespace Flow

variable {α : Type} {x : Flow Call Call.Answer α} {σ σ' : Stores}

/-- The message that the flow breaks off with once its calls got the replies, all of them, and what is
left of the stores. -/
def breaksWith : Flow Call Call.Answer α → List Reply → Stores → Option (String × Stores)
  | .panic message, [], σ => some (message, σ)
  | .note _ rest, replies, σ => rest.breaksWith replies σ
  | .ask call next, reply :: replies, σ =>
    match σ.meet call reply with
    | some (.value a, _, σ) => (next a).breaksWith replies σ
    | some (.panic message, _, σ) => if replies.isEmpty then some (message, σ) else none
    | none => none
  | _, _, _ => none

theorem runs_of_breaksWith {replies : List Reply} {message : String}
    (h : x.breaksWith replies σ = some (message, σ')) (hs : σ.table.Sound) :
    ∃ mets, x.Runs σ mets (.panic message) σ' ∧ mets.map (·.reply) = replies := by
  induction x generalizing replies σ with
  | done => cases replies <;> cases h
  | panic =>
    cases replies with
    | nil =>
      cases h
      exact ⟨[], .panic, rfl⟩
    | cons => cases h
  | note e rest ih =>
    obtain ⟨mets, hr, hp⟩ := ih h hs
    exact ⟨mets, .note hr, hp⟩
  | ask call next ih =>
    cases replies with
    | nil => cases h
    | cons reply replies =>
      rw [breaksWith] at h
      split at h
      next answer eff σ₁ hm =>
        have hshift := Stores.meet_shifts hs hm
        obtain ⟨mets, hr, hp⟩ := ih _ h hshift.sound
        exact ⟨_ :: mets, .ask ⟨.refl σ, hs⟩ hm hr, by simp [hp]⟩
      next hm =>
        split at h
        next he =>
          cases h
          obtain rfl := List.isEmpty_iff.mp he
          exact ⟨_, .broke ⟨.refl σ, hs⟩ hm, rfl⟩
        next => cases h
      next => cases h

end Flow

def wideTransfer : Job := .transfer ⟨1, 2, .most, some 1⟩ 1 "a"

def wideReplies : List Reply :=
  [.served 0, .served 0, .served 0, .elsewhere (.rates (.lookup .usd .eur)) (some forty)]

/-- A request that is answered like any other, at a positive rate, and breaks off all the same. -/
theorem broken_of_wideTransfer : ∃ mets σ',
    (wideTransfer.task plainService).Runs twoCurrencies mets (.panic "Multiplication overflowed") σ' ∧
    (∀ m ∈ mets, m.reply.Candid) := by
  obtain ⟨⟨message, σ'⟩, hbreaks, rfl⟩ := Option.map_eq_some_iff.mp (show
    ((wideTransfer.task plainService).breaksWith wideReplies twoCurrencies).map (·.1) =
      some "Multiplication overflowed" by decide +kernel)
  obtain ⟨mets, hruns, hreplies⟩ := Flow.runs_of_breaksWith hbreaks TransactionTable.sound_empty
  refine ⟨mets, σ', hruns, fun m hm => ?_⟩
  have hcandid : ∀ reply ∈ wideReplies, reply.Candid := by
    simp [wideReplies, Reply.Candid, Decimal.lt_def, forty, Decimal.ofInt64, Decimal.zero, tenTo]
  exact hcandid _ (hreplies ▸ List.mem_map_of_mem hm)

def fullTarget : Stores where
  book := ((Book.openAccount {} 1 .usd hundred).2.openAccount 1 .usd .most).2

def overfullTransfer : Job := .transfer ⟨1, 2, forty, some 1⟩ 1 "a"

def overfullReplies : List Reply :=
  [.served 0, .served 0, .served 0,
    .elsewhere (.categories (.find 1)) (.ok (some ⟨1, none, "FOOD"⟩)),
    .elsewhere (.limits (.find 1)) (.ok (some ⟨1, hundred, hundred⟩)), .elsewhere .now (0 : Int),
    .served 0, .served 0, .served 0, .served 0, .served 0, .served 0, .served 0]

/-- The program breaks off between its two legs: the source is debited and the record stays open. -/
theorem breaks_off_iff_overfullTransfer : ∃ mets σ',
    (overfullTransfer.task plainService).Runs fullTarget mets (.panic "Addition overflowed") σ' ∧
    σ'.book.applied.map (·.amount) = [-forty] ∧
    σ'.table.rows.map (fun r => (r.status, r.step)) = [(.processing, .debitDone)] ∧
    ((∃ m ∈ mets, σ'.BreaksOff m) ∨ overfullTransfer.Overruns (.ofMets mets)) := by
  obtain ⟨⟨message, σ'⟩, hbreaks, hmap⟩ := Option.map_eq_some_iff.mp (show
    ((overfullTransfer.task plainService).breaksWith overfullReplies fullTarget).map
      (fun ended => (ended.1, ended.2.book.applied.map (·.amount),
        ended.2.table.rows.map (fun r => (r.status, r.step)))) =
      some ("Addition overflowed", [-forty], [(.processing, .debitDone)]) by decide +kernel)
  simp only [Prod.mk.injEq] at hmap
  obtain ⟨rfl, happlied, hrows⟩ := hmap
  obtain ⟨mets, hruns, -⟩ := Flow.runs_of_breaksWith hbreaks TransactionTable.sound_empty
  exact ⟨mets, σ', hruns, happlied, hrows, (breaks_off_iff hruns).1.mp ⟨_, rfl⟩⟩

end Settlement
