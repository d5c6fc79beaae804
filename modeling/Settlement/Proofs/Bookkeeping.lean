import Mathlib.Data.List.Induction
import Mathlib.Tactic.Linarith
import Settlement.Proofs.Book
import Settlement.Proofs.Values

/-!
What a ledger in memory keeps over any sequence of calls. Applied rows are unique and stay, a balance is
what its account was opened with and what its rows moved, nobody goes below zero, and what was closed
does not change any more.
-/

namespace Settlement
namespace Book

inductive Step where
  | upkeep (u : Upkeep)
  | call (call : LedgerCall)

namespace Step

def apply (b : Book) : Step → Book
  | upkeep u => u.apply b
  | call c => (Book.answer c b).2

def opening? : Step → Option Decimal
  | upkeep (.openAccount _ _ balance) => some balance
  | _ => none

end Step

def steps (b : Book) (ss : List Step) : Book := ss.foldl Step.apply b

def rowsAt (b : Book) (account : AccountId) : List AppliedRow := b.applied.filter (·.account == account)

def amounts (b : Book) (account : AccountId) : List Decimal := (b.rowsAt account).map (·.amount)

/-- The mutation can be applied, and makes the balance. Nothing but the row itself is remembered of
the operation. -/
structure Admits (b : Book) (direction : Direction) (id : AccountId) (amount : Decimal)
    (operation : OperationId) (account : Account) (balance : Decimal) : Prop where
  positive : ¬amount ≤ Decimal.zero
  own : account.id = id
  first : ∃ before after, b.accounts = before ++ account :: after ∧ ∀ other ∈ before, other.id ≠ id
  unheld : id ∉ b.held
  fresh : (operation, id) ∉ b.applied.map AppliedRow.slot
  active : account.status = .active
  covered : direction = .debit → amount ≤ account.balance
  sum : ∃ signed, direction.Signs amount signed ∧ account.balance.add signed = some balance

theorem accept_iff {direction : Direction} {account : Account} {amount : Decimal} :
    accept direction account amount = .ok () ↔
      account.status = .active ∧ (direction = .debit → amount ≤ account.balance) := by
  unfold accept
  split
  next hs => simp [hs]
  next hs =>
    split
    next hf => simp [hf, Decimal.not_le]
    next hf => simpa [not_not.mp hs, Decimal.not_lt] using hf

section

variable {b b' : Book} {direction : Direction} {id : AccountId} {amount : Decimal}
  {operation : OperationId} {account : Account} {balance : Decimal}

theorem Admits.free (h : b.Admits direction id amount operation account balance) :
    b.lock id = .ok account := lock_iff.mpr ⟨account?_eq_some.mpr ⟨h.own, h.first⟩, h.unheld⟩

theorem Admits.added (h : b.Admits direction id amount operation account balance) :
    account.balance.add (direction.delta amount) = some balance := by
  obtain ⟨signed, hsigned, hsum⟩ := h.sum
  rwa [← hsigned.eq_delta]

theorem Admits.mutate (h : b.Admits direction id amount operation account balance) :
    b.mutate direction id amount operation =
      (.value (.ok .applied),
        { b.put { account with balance } with
          applied := b.applied ++ [⟨operation, id, direction.delta amount⟩] }) := by
  have hr : ¬(b.row? operation id).isSome = true := fun hk => h.fresh (b.row?_isSome.mp hk)
  unfold Book.mutate
  rw [if_neg h.positive, h.free]
  simp only [hr, accept_iff.mpr ⟨h.active, h.covered⟩, h.added]
  rfl

/-- A mutation is admitted and applied, or it leaves the book as it is. -/
theorem mutate_cases (b : Book) (direction : Direction) (id : AccountId) (amount : Decimal)
    (operation : OperationId) :
    (∃ account balance, b.Admits direction id amount operation account balance) ∨
      (b.mutate direction id amount operation).1 ≠ .value (.ok .applied) ∧
        (b.mutate direction id amount operation).2 = b := by
  unfold mutate
  split
  · exact .inr ⟨by simp, rfl⟩
  next hpos =>
    split
    · exact .inr ⟨by simp, rfl⟩
    next account hl =>
      split
      · exact .inr ⟨by simp, rfl⟩
      next hn =>
        split
        · exact .inr ⟨by simp, rfl⟩
        next ha =>
          split
          · exact .inr ⟨by simp, rfl⟩
          next balance hs =>
            obtain ⟨hfound, hfree⟩ := lock_iff.mp hl
            obtain ⟨hown, hfirst⟩ := account?_eq_some.mp hfound
            obtain ⟨hactive, hcovered⟩ := accept_iff.mp ha
            exact .inl ⟨account, balance, hpos, hown, hfirst, hfree, fun hk => hn (b.row?_isSome.mpr hk),
              hactive, hcovered, _, direction.signs_delta amount, hs⟩

/-- A mutation answers that it was applied exactly when it is admitted, and then only it adds a row. -/
theorem mutate_applied (b : Book) (direction : Direction) (id : AccountId) (amount : Decimal)
    (operation : OperationId) :
    ((b.mutate direction id amount operation).1 = .value (.ok .applied) ↔
      ∃ account balance, b.Admits direction id amount operation account balance) ∧
    ((b.mutate direction id amount operation).1 = .value (.ok .applied) ↔
      ∃ signed, direction.Signs amount signed ∧
        (b.mutate direction id amount operation).2.applied =
          b.applied ++ [⟨operation, id, signed⟩]) ∧
    ((b.mutate direction id amount operation).1 ≠ .value (.ok .applied) →
      (b.mutate direction id amount operation).2 = b) := by
  rcases b.mutate_cases direction id amount operation with ⟨account, balance, h⟩ | ⟨hn, hb⟩
  · rw [h.mutate]
    exact ⟨iff_of_true rfl ⟨account, balance, h⟩,
      iff_of_true rfl ⟨_, direction.signs_delta amount, rfl⟩, fun hn => absurd rfl hn⟩
  · refine ⟨iff_of_false hn ?_, iff_of_false hn ?_, fun _ => hb⟩
    · rintro ⟨account, balance, h⟩
      exact hn (by rw [h.mutate])
    · rw [hb]
      simp

/-- Where a debit is covered, no sum is below zero, also before it is rounded. -/
theorem sum_nonneg (hp : ¬amount ≤ Decimal.zero) (hc : direction = .debit → amount ≤ account.balance)
    (hs : Decimal.zero ≤ account.balance) :
    0 ≤ account.balance.value + (direction.delta amount).value := by
  have hsigned := direction.signs_delta amount
  rw [Decimal.le_iff_value, Decimal.value_zero] at hs
  rw [Decimal.not_le, Decimal.lt_iff_value, Decimal.value_zero] at hp
  cases direction with
  | credit =>
    rw [hsigned.credit rfl]
    exact add_nonneg hs hp.le
  | debit =>
    have hle := Decimal.le_iff_value.mp (hc rfl)
    rw [(hsigned.debit rfl).2]
    linarith

/-- An admitted mutation leaves no debt. -/
theorem Admits.solvent (h : b.Admits direction id amount operation account balance)
    (hs : Decimal.zero ≤ account.balance) : Decimal.zero ≤ balance := by
  have hsum := Decimal.add_nonneg h.added (sum_nonneg h.positive h.covered hs)
  rwa [Decimal.le_iff_value, Decimal.value_zero]

inductive Done (b : Book) : Step → Book → Prop
  | still {s : Step} {b' : Book} (unopened : s.opening? = none) (accounts : b'.accounts = b.accounts)
      (rows : b'.applied = b.applied) : Done b s b'
  | opened {owner : UserId} {currency : Currency} {balance : Decimal} {b' : Book}
      (accounts : b'.accounts =
        b.accounts ++ [⟨b.accounts.length + 1, owner, currency, balance, .active⟩])
      (rows : b'.applied = b.applied) : Done b (.upkeep (.openAccount owner currency balance)) b'
  | closed {id : AccountId} {account : Account} {b' : Book} (free : b.lock id = .ok account)
      (accounts : b'.accounts = (b.put { account with status := .closed }).accounts)
      (rows : b'.applied = b.applied) : Done b (.upkeep (.closeAccount id)) b'
  | applied {direction : Direction} {id : AccountId} {amount : Decimal} {operation : OperationId}
      {account : Account} {balance : Decimal} {b' : Book}
      (admitted : b.Admits direction id amount operation account balance)
      (accounts : b'.accounts = (b.put { account with balance }).accounts)
      (rows : b'.applied = b.applied ++ [⟨operation, id, direction.delta amount⟩]) :
      Done b (.call (.mutate direction id amount operation)) b'

theorem apply_done (b : Book) (s : Step) : b.Done s (s.apply b) := by
  cases s with
  | upkeep u =>
    cases u with
    | openAccount => exact .opened rfl rfl
    | hold | release => exact .still rfl rfl rfl
    | closeAccount id =>
      change b.Done _ (b.closeAccount id).2
      unfold closeAccount
      split
      · exact .still rfl rfl rfl
      next account hl => exact .closed hl rfl rfl
  | call c =>
    cases c with
    | getAccount => exact .still rfl rfl rfl
    | mutate direction id amount operation =>
      change b.Done _ (b.mutate direction id amount operation).2
      rcases b.mutate_cases direction id amount operation with ⟨account, balance, h⟩ | ⟨-, hb⟩
      · rw [h.mutate]
        exact .applied h rfl rfl
      · rw [hb]
        exact .still rfl rfl rfl

theorem rowsAt_append {row : AppliedRow} (h : b'.applied = b.applied ++ [row]) (id : AccountId) :
    b'.rowsAt id = if row.account = id then b.rowsAt id ++ [row] else b.rowsAt id := by
  unfold rowsAt
  rw [h, List.filter_append]
  split
  next hi => simp [hi]
  next hi => simp [hi]

theorem rowsAt_congr (h : b'.applied = b.applied) (id : AccountId) : b'.rowsAt id = b.rowsAt id := by
  rw [rowsAt, h, rowsAt]

/-- The balance is what the account was opened with and, one after the other, what its rows moved. -/
structure Carries (b : Book) (opening : Decimal) (account : Account) : Prop where
  folded : (b.amounts account.id).foldlM Decimal.add opening = some account.balance
  solvent : Decimal.zero ≤ opening → Decimal.zero ≤ account.balance

/-- What a book has kept since it was empty, if accounts were opened with these balances. -/
structure Kept (openings : List Decimal) (b : Book) : Prop where
  once : (b.applied.map AppliedRow.slot).Nodup
  opened : b.accounts.length = openings.length
  ids : ∀ (n : Nat) account, b.accounts[n]? = some account → account.id = n + 1
  known : ∀ row ∈ b.applied, row.account ≤ b.accounts.length
  balances : ∀ (n : Nat) opening, openings[n]? = some opening →
    ∃ account, b.accounts[n]? = some account ∧ b.Carries opening account

theorem Carries.congr {opening : Decimal} (h : b.Carries opening account)
    (hr : b'.rowsAt account.id = b.rowsAt account.id) : b'.Carries opening account :=
  ⟨by rw [amounts, hr]; exact h.folded, h.solvent⟩

theorem getElem?_put (new : Account) (n : Nat) : (b.put new).accounts[n]? =
    (b.accounts[n]?).map fun a => if a.id = new.id then new else a :=
  List.getElem?_map ..

section

variable {openings : List Decimal}

theorem kept_empty : Kept [] {} := ⟨by simp, rfl, by simp, by simp, by simp⟩

theorem Kept.eq_of_id (h : b.Kept openings) {n : Nat} {a : Account} (hn : b.accounts[n]? = some a)
    (hm : account ∈ b.accounts) (hi : a.id = account.id) : a = account := by
  obtain ⟨m, hm⟩ := List.getElem?_of_mem hm
  have hnm : (n : Int) + 1 = m + 1 := by rw [← h.ids n a hn, hi, h.ids m account hm]
  have hnm : n = m := by omega
  rw [hnm, hm] at hn
  exact (Option.some.inj hn).symm

theorem Kept.le_length (h : b.Kept openings) (hm : account ∈ b.accounts) :
    account.id ≤ b.accounts.length := by
  obtain ⟨m, hm⟩ := List.getElem?_of_mem hm
  have hl : m < b.accounts.length := (List.getElem?_eq_some_iff.mp hm).1
  rw [h.ids m account hm]
  exact_mod_cast hl

theorem Kept.same (h : b.Kept openings) (accounts : b'.accounts = b.accounts)
    (rows : b'.applied = b.applied) : b'.Kept openings := by
  refine ⟨rows ▸ h.once, accounts ▸ h.opened, accounts ▸ h.ids, ?_, ?_⟩
  · rw [rows, accounts]
    exact h.known
  · intro n opening hn
    obtain ⟨account, ha, hc⟩ := h.balances n opening hn
    exact ⟨account, accounts ▸ ha, hc.congr (rowsAt_congr rows _)⟩

/-- A new account has no rows yet. -/
theorem Kept.open (h : b.Kept openings) {owner : UserId} {currency : Currency}
    (accounts : b'.accounts =
      b.accounts ++ [⟨b.accounts.length + 1, owner, currency, balance, .active⟩])
    (rows : b'.applied = b.applied) : b'.Kept (openings ++ [balance]) where
  once := rows ▸ h.once
  opened := by simp [accounts, h.opened]
  ids := by
    intro n account hn
    rw [accounts, List.getElem?_append] at hn
    split at hn
    · exact h.ids n account hn
    next hl =>
      obtain ⟨hi, rfl⟩ := List.getElem?_eq_some_iff.mp hn
      have he : n = b.accounts.length := by
        simp only [List.length_singleton] at hi
        omega
      simp [he]
  known := by
    intro row hr
    rw [rows] at hr
    rw [accounts, List.length_append, List.length_singleton]
    exact Int.le_trans (h.known row hr) (Int.ofNat_le.mpr (Nat.le_succ _))
  balances := by
    intro n opening hn
    rw [List.getElem?_append] at hn
    split at hn
    next hl =>
      obtain ⟨account, ha, hc⟩ := h.balances n opening hn
      refine ⟨account, ?_, hc.congr (rowsAt_congr rows _)⟩
      rw [accounts, List.getElem?_append_left (h.opened ▸ hl), ha]
    next hl =>
      obtain ⟨hi, rfl⟩ := List.getElem?_eq_some_iff.mp hn
      have he : n = b.accounts.length := by
        simp only [List.length_singleton] at hi
        rw [h.opened]
        omega
      refine ⟨⟨b.accounts.length + 1, owner, currency, balance, .active⟩, by simp [accounts, he], ?_⟩
      have hnone : b'.rowsAt (b.accounts.length + 1) = [] := by
        rw [rowsAt_congr rows, rowsAt, List.filter_eq_nil_iff]
        intro row hr he
        have hk := h.known row hr
        rw [beq_iff_eq.mp he] at hk
        exact absurd (Int.lt_of_add_one_le hk) (Int.lt_irrefl _)
      refine ⟨by simp [amounts, hnone], fun ho => ?_⟩
      simpa using ho

/-- An account is written in its place, and the rows of the others stay. -/
theorem Kept.put (h : b.Kept openings) {new : Account} (hm : account ∈ b.accounts)
    (hi : new.id = account.id) (accounts : b'.accounts = (b.put new).accounts)
    (once : (b'.applied.map AppliedRow.slot).Nodup)
    (known : ∀ row ∈ b'.applied, row.account ≤ b.accounts.length)
    (others : ∀ a, a ≠ new.id → b'.rowsAt a = b.rowsAt a)
    (carries : ∀ opening, b.Carries opening account → b'.Carries opening new) :
    b'.Kept openings where
  once := once
  opened := by
    rw [accounts, Book.put, List.length_map]
    exact h.opened
  ids := by
    intro n a hn
    rw [accounts, getElem?_put, Option.map_eq_some_iff] at hn
    obtain ⟨x, hx, rfl⟩ := hn
    split
    next he => exact he ▸ h.ids n x hx
    next => exact h.ids n x hx
  known := by
    rw [accounts, Book.put, List.length_map]
    exact known
  balances := by
    intro n opening hn
    obtain ⟨a, ha, hc⟩ := h.balances n opening hn
    refine ⟨_, by rw [accounts, getElem?_put, ha]; rfl, ?_⟩
    beta_reduce
    split
    next he =>
      rw [h.eq_of_id ha hm (he.trans hi)] at hc
      exact carries opening hc
    next he => exact hc.congr (others a.id he)

theorem Carries.move {opening : Decimal} (h : b.Carries opening account)
    (ha : b.Admits direction id amount operation account balance)
    (rows : b'.applied = b.applied ++ [⟨operation, id, direction.delta amount⟩]) :
    b'.Carries opening { account with balance } where
  folded := by
    have hr := rowsAt_append rows id
    rw [if_pos rfl] at hr
    change (b'.amounts account.id).foldlM Decimal.add opening = some balance
    have hf := h.folded
    rw [amounts, lock_id ha.free] at hf ⊢
    rw [hr, List.map_append, List.foldlM_append, hf]
    simp [ha.added]
  solvent := fun ho => ha.solvent (h.solvent ho)

theorem Kept.step (h : b.Kept openings) {s : Step} (hd : b.Done s b') :
    b'.Kept (openings ++ s.opening?.toList) := by
  cases hd with
  | still unopened accounts rows =>
    rw [unopened, Option.toList_none, List.append_nil]
    exact h.same accounts rows
  | opened accounts rows => exact h.open accounts rows
  | closed free accounts rows =>
    change b'.Kept (openings ++ [])
    rw [List.append_nil]
    refine Kept.put h (lock_mem free) ?_ accounts (rows ▸ h.once) (rows ▸ h.known) ?_ ?_
    · rfl
    · exact fun a _ => rowsAt_congr rows a
    · intro opening hc
      exact ⟨(hc.congr (rowsAt_congr rows _)).folded, hc.solvent⟩
  | applied admitted accounts rows =>
    change b'.Kept (openings ++ [])
    rw [List.append_nil]
    have hm := lock_mem admitted.free
    refine Kept.put h hm ?_ accounts ?_ ?_ ?_ fun opening hc => hc.move admitted rows
    · rfl
    · rw [rows, List.map_append, List.map_singleton, List.nodup_append]
      refine ⟨h.once, by simp, ?_⟩
      rintro slot hs x hx rfl
      rw [List.mem_singleton.mp hx] at hs
      exact admitted.fresh hs
    · intro row hr
      rw [rows] at hr
      rcases List.mem_append.mp hr with hr | hr
      · exact h.known row hr
      · rw [List.mem_singleton.mp hr]
        exact lock_id admitted.free ▸ h.le_length hm
    · intro a ha
      rw [rowsAt_append rows, if_neg]
      exact fun he => ha (he ▸ (lock_id admitted.free).symm)

theorem Kept.steps (h : b.Kept openings) (ss : List Step) :
    (b.steps ss).Kept (openings ++ ss.filterMap Step.opening?) := by
  induction ss generalizing b openings with
  | nil => simpa [Book.steps] using h
  | cons s ss ih =>
    have hs := ih (h.step (b.apply_done s))
    rw [List.append_assoc] at hs
    have he : (s :: ss).filterMap Step.opening? = s.opening?.toList ++ ss.filterMap Step.opening? := by
      rw [List.filterMap_cons]
      cases s.opening? <;> rfl
    rw [he]
    exact hs

end

theorem Done.grows (h : b.Done s b') : b.applied <+: b'.applied := by
  cases h with
  | still _ _ rows | opened _ rows | closed _ _ rows => exact rows ▸ List.prefix_rfl
  | applied _ _ rows =>
    rw [rows]
    exact List.prefix_append _ _

/-- Rows are never changed or removed. -/
theorem applied_grows (b : Book) (ss : List Step) : b.applied <+: (b.steps ss).applied := by
  induction ss generalizing b with
  | nil => exact List.prefix_rfl
  | cons s ss ih => exact (b.apply_done s).grows.trans (ih _)

theorem account?_congr (h : b'.accounts = b.accounts) (id : AccountId) :
    b'.account? id = b.account? id := by
  rw [account?, h, account?]

theorem Done.closed_stays {s : Step} (h : b.Done s b') (ha : b.account? id = some account)
    (hc : account.status = .closed) :
    b'.account? id = some account ∧ b'.rowsAt id = b.rowsAt id := by
  have hid : account.id = id := by simpa using List.find?_some ha
  have hlock : ∀ {k other}, b.lock k = .ok other → account.id = other.id → other = account := by
    intro k other hl he
    have ho := account?_of_lock hl
    rw [← lock_id hl, ← he, hid, ha] at ho
    exact (Option.some.inj ho).symm
  cases h with
  | still _ accounts rows => exact ⟨account?_congr accounts id ▸ ha, rowsAt_congr rows id⟩
  | opened accounts rows =>
    refine ⟨?_, rowsAt_congr rows id⟩
    unfold account? at ha ⊢
    rw [accounts, List.find?_append, ha, Option.some_or]
  | closed free accounts rows =>
    refine ⟨?_, rowsAt_congr rows id⟩
    rw [account?_congr accounts, account?_put, ha, Option.map_some]
    split
    next he =>
      rw [hlock free he, ← hc]
    next => rfl
  | @applied _ id' _ _ _ _ _ admitted accounts rows =>
    -- A closed account accepts nothing, so the mutation was on another one.
    have hne : account.id ≠ id' := by
      intro he
      have hactive := admitted.active
      rw [hlock admitted.free (he.trans (lock_id admitted.free).symm), hc] at hactive
      contradiction
    refine ⟨?_, ?_⟩
    · rw [account?_congr accounts, account?_put, ha, Option.map_some, if_neg]
      rwa [lock_id admitted.free]
    · rw [rowsAt_append rows, if_neg]
      exact fun he => hne (hid.trans he.symm)

/-- Nothing changes an account that is closed, nor its rows. -/
theorem steps_closed (ss : List Step) (ha : b.account? id = some account)
    (hc : account.status = .closed) :
    (b.steps ss).account? id = some account ∧ (b.steps ss).rowsAt id = b.rowsAt id := by
  induction ss generalizing b with
  | nil => exact ⟨ha, rfl⟩
  | cons s ss ih =>
    obtain ⟨hs, hr⟩ := (b.apply_done s).closed_stays ha hc
    obtain ⟨hss, hrs⟩ := ih hs
    exact ⟨hss, hrs.trans hr⟩

/-- Whoever is there is closed, unless the lock is held. -/
theorem closeAccount_iff : (b.closeAccount id).1 = .ok () ↔
    id ∉ b.held ∧ ∃ account ∈ b.accounts, account.id = id := by
  have hlock : (b.closeAccount id).1 = .ok () ↔ ∃ account, b.lock id = .ok account := by
    unfold closeAccount
    split
    next e hl => simp [hl]
    next account hl => simp [hl]
  have hfound : (∃ account, b.account? id = some account) ↔ ∃ account ∈ b.accounts, account.id = id := by
    rw [← Option.isSome_iff_exists]
    simp [account?, List.find?_isSome]
  simp only [hlock, ← hfound, lock_iff, exists_and_right]
  exact and_comm

theorem closeAccount_ok (h : (b.closeAccount id).1 = .ok ()) :
    ∃ account, b.account? id = some account ∧
      (b.closeAccount id).2.account? id = some { account with status := .closed } := by
  unfold closeAccount at h ⊢
  split at h
  · contradiction
  next account hl =>
    have ha := account?_of_lock hl
    refine ⟨account, ha, ?_⟩
    rw [account?_put, ha, Option.map_some, if_pos rfl]

theorem closeAccount_refused (h : (b.closeAccount id).1 ≠ .ok ()) : (b.closeAccount id).2 = b := by
  unfold closeAccount at h ⊢
  split at h
  · rfl
  · exact absurd rfl h

end

/-- The contract of the ledger between any two points of a run of steps from the empty book: a row for
each operation and account at most, and for good; an answer that tells whether the row was added, with
everything else left as it was; balances that are what was opened with and what the rows moved, and not
negative; and accounts that are closed if they are there and nobody holds them, and stay as they were
closed. -/
theorem books_kept (past next : List Step) :
    ((steps {} past).applied.map AppliedRow.slot).Nodup ∧
    (steps {} past).applied <+: ((steps {} past).steps next).applied ∧
    (∀ direction id amount operation,
      (((steps {} past).mutate direction id amount operation).1 = .value (.ok .applied) ↔
        ∃ account balance,
          (steps {} past).Admits direction id amount operation account balance) ∧
      (((steps {} past).mutate direction id amount operation).1 = .value (.ok .applied) ↔
        ∃ signed, direction.Signs amount signed ∧
          ((steps {} past).mutate direction id amount operation).2.applied =
            (steps {} past).applied ++ [⟨operation, id, signed⟩]) ∧
      (((steps {} past).mutate direction id amount operation).1 ≠ .value (.ok .applied) →
        ((steps {} past).mutate direction id amount operation).2 = steps {} past)) ∧
    (∀ id,
      (((steps {} past).closeAccount id).1 = .ok () ↔
        id ∉ (steps {} past).held ∧ ∃ account ∈ (steps {} past).accounts, account.id = id) ∧
      (((steps {} past).closeAccount id).1 ≠ .ok () →
        ((steps {} past).closeAccount id).2 = steps {} past)) ∧
    (steps {} past).accounts.length = (past.filterMap Step.opening?).length ∧
    (∀ (n : Nat) opening, (past.filterMap Step.opening?)[n]? = some opening →
      ∃ account, (steps {} past).accounts[n]? = some account ∧ account.id = n + 1 ∧
        ((steps {} past).amounts account.id).foldlM Decimal.add opening = some account.balance ∧
        (Decimal.zero ≤ opening → Decimal.zero ≤ account.balance)) ∧
    ∀ id, ((steps {} past).closeAccount id).1 = .ok () →
      ∃ account, (steps {} past).account? id = some account ∧
        (((steps {} past).closeAccount id).2.steps next).account? id =
          some { account with status := .closed } ∧
        (((steps {} past).closeAccount id).2.steps next).rowsAt id = (steps {} past).rowsAt id := by
  have hk : (steps {} past).Kept (past.filterMap Step.opening?) := kept_empty.steps past
  refine ⟨hk.once, applied_grows _ next, mutate_applied _,
    fun _ => ⟨closeAccount_iff, closeAccount_refused⟩, hk.opened, ?_, ?_⟩
  · intro n opening hn
    obtain ⟨account, ha, hc⟩ := hk.balances n opening hn
    exact ⟨account, ha, hk.ids n account ha, hc.folded, hc.solvent⟩
  · intro id hc
    obtain ⟨account, ha, hclosed⟩ := closeAccount_ok hc
    obtain ⟨hs, hr⟩ := steps_closed next hclosed rfl
    exact ⟨account, ha, hs, hr.trans (rowsAt_congr (closeAccount_applied _ id) id)⟩

end Book
end Settlement
