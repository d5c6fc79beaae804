import Settlement.Proofs.Foreign

/-!
The history of an account, page after page. Main statement: the pages up to the first empty one show
the transactions of the account, each once and the newest first.
-/

namespace Settlement

/-- The one record was created after the other, or at the same time and has the greater id. -/
def TransactionRecord.Newer (a b : TransactionRecord) : Prop :=
  b.createdAt < a.createdAt ∨ (a.createdAt = b.createdAt ∧ b.id < a.id)

/-- Pages of one size, one after the other, are what they take from the front. -/
theorem flatMap_pages {β : Type} (l : List β) (size count : Nat) :
    ((List.range count).flatMap fun n => (l.drop (n * size)).take size) = l.take (count * size) := by
  induction count with
  | zero => simp
  | succ count ih =>
    rw [List.range_succ, List.flatMap_append, ih, List.flatMap_singleton, Nat.succ_mul, List.take_add]

def pageCount (items size : Nat) : Nat := (items + size - 1) / size

section

variable {items size n : Nat}

theorem lt_pageCount (hs : 0 < size) : n < pageCount items size ↔ n * size < items := by
  rw [pageCount, Nat.lt_iff_add_one_le, Nat.le_div_iff_mul_le hs, Nat.succ_mul]
  omega

theorem le_pageCount_mul (hs : 0 < size) : items ≤ pageCount items size * size :=
  Nat.le_of_not_lt fun h => Nat.lt_irrefl _ ((lt_pageCount hs).mpr h)

theorem pageCount_le (hs : 0 < size) : pageCount items size ≤ items := by
  refine Nat.le_of_not_lt fun h => ?_
  have hlt := (lt_pageCount hs).mp h
  exact Nat.lt_irrefl _ (Nat.lt_of_le_of_lt (Nat.le_mul_of_pos_right items hs) hlt)

end

namespace PageRequest

theorem clamped_pos (r : PageRequest) (max : Nat) : 0 < (r.clamped max).size :=
  Nat.le_min.mpr ⟨Nat.le_max_right _ _, Nat.le_max_right _ _⟩

theorem clamped_size_le {r : PageRequest} {max n : Nat} (hm : max ≤ n) (hn : 1 ≤ n) :
    (r.clamped max).size ≤ n :=
  Nat.le_trans (Nat.min_le_right _ _) (Nat.max_le.mpr ⟨hm, hn⟩)

/-- Pages and sizes of 32 bits make an offset of 64 bits. -/
theorem offset_le {r : PageRequest} {max : Nat} (hp : r.page ≤ maxNat32) (hm : max ≤ maxNat32) :
    (r.clamped max).offset ≤ maxNat64 :=
  Nat.le_trans (Nat.mul_le_mul hp (clamped_size_le hm (by decide))) (by decide)

end PageRequest

namespace TransactionTable

section

variable {t : TransactionTable} {account : AccountId} {r : TransactionRecord}

theorem newerFirst_iff {a b : TransactionRecord} : newerFirst a b = true ↔
    b.createdAt < a.createdAt ∨ (a.createdAt = b.createdAt ∧ b.id ≤ a.id) := by
  simp [newerFirst]

def listing (t : TransactionTable) (account : AccountId) : List TransactionRecord :=
  (t.rows.filter (touches account)).mergeSort newerFirst

theorem mem_listing : r ∈ t.listing account ↔
    r ∈ t.rows ∧ (r.source = some account ∨ r.target = some account) := by
  simp [listing, touches]

theorem listing_length_le (t : TransactionTable) (account : AccountId) :
    (t.listing account).length ≤ t.rows.length := by
  rw [listing, List.length_mergeSort]
  exact List.length_filter_le _ _

theorem newerFirst_trans (a b c : TransactionRecord) (hab : newerFirst a b = true)
    (hbc : newerFirst b c = true) : newerFirst a c = true := by
  rw [newerFirst_iff] at *
  grind

theorem newerFirst_total (a b : TransactionRecord) : (newerFirst a b || newerFirst b a) = true := by
  rw [Bool.or_eq_true, newerFirst_iff, newerFirst_iff]
  grind

theorem listing_newest (hids : (t.rows.map (·.id)).Nodup) :
    (t.listing account).Pairwise TransactionRecord.Newer := by
  have hsorted := List.pairwise_mergeSort newerFirst_trans newerFirst_total
    (t.rows.filter (touches account))
  have hdistinct : (t.listing account).Pairwise fun a b => a.id ≠ b.id := by
    rw [← List.pairwise_map (f := fun r : TransactionRecord => r.id)]
    exact ((List.mergeSort_perm _ _).map _).nodup_iff.mpr (hids.sublist (List.filter_sublist.map _))
  refine (hsorted.and hdistinct).imp fun {a b} h => ?_
  have hle := newerFirst_iff.mp h.1
  have hne := h.2
  unfold TransactionRecord.Newer
  grind

/-- What the pages of an account's history are, and how many are not empty: together they show the
records. -/
structure Paginates (t : TransactionTable) (account : AccountId) (size : Nat)
    (pages : Nat → Page TransactionView) (count : Nat) (records : List TransactionRecord) : Prop where
  complete : ∀ r, r ∈ records ↔ r ∈ t.rows ∧ (r.source = some account ∨ r.target = some account)
  newest : records.Pairwise TransactionRecord.Newer
  together : List.Forall₂ TransactionView.Shows
    ((List.range count).flatMap fun n => (pages n).items) records
  empty : ∀ n, (pages n).items = [] ↔ count ≤ n
  full : ∀ n, n + 1 < count → (pages n).items.length = size
  heading : ∀ n, (pages n).page = n ∧ (pages n).size = size ∧ (pages n).total = records.length
  shown : ∀ n, ∀ v ∈ (pages n).items, ∃ r ∈ records, v.Shows r

theorem paginates_listing {size : Nat} (hids : (t.rows.map (·.id)).Nodup) (hs : 0 < size) :
    t.Paginates account size (fun n => (t.history account ⟨n, size⟩).map (·.view))
      (pageCount (t.listing account).length size) (t.listing account) where
  complete _ := mem_listing
  newest := listing_newest hids
  together := by
    show List.Forall₂ _ ((List.range _).flatMap fun n =>
      (((t.listing account).drop (n * size)).take size).map (·.view)) _
    rw [← List.map_flatMap, flatMap_pages, List.take_of_length_le (le_pageCount_mul hs),
      List.forall₂_map_left_iff, List.forall₂_same]
    exact fun r _ => r.view_shows
  empty := by
    intro n
    show (((t.listing account).drop (n * size)).take size).map (·.view) = [] ↔ _
    rw [List.map_eq_nil_iff, List.take_eq_nil_iff, or_iff_right (Nat.ne_of_gt hs),
      List.drop_eq_nil_iff, ← Nat.not_lt, ← lt_pageCount hs, Nat.not_lt]
  full := by
    intro n hn
    show ((((t.listing account).drop (n * size)).take size).map (·.view)).length = size
    have hlt := (lt_pageCount hs).mp hn
    rw [Nat.succ_mul] at hlt
    rw [List.length_map, List.length_take, List.length_drop, Nat.min_eq_left (by omega)]
  heading _ := ⟨rfl, rfl, rfl⟩
  shown := by
    intro n v hv
    obtain ⟨r, hr, rfl⟩ := List.mem_map.mp hv
    exact ⟨r, List.mem_of_mem_drop (List.mem_of_mem_take hr), r.view_shows⟩

end

end TransactionTable

section

variable {T : Type} {around : Elsewhere T} {w : Stores × T} {account : AccountId} {user : UserId}
  {owned : Account}

namespace Service

open Program Fallible

/-- To the owner of an account that nobody holds, a program goes on. -/
theorem ownedAccount_passes {α : Type} {value : Except ServiceError α}
    {f : Account → Program ServiceError α} (ha : w.1.book.account? account = some owned)
    (hu : owned.owner = user) (hf : account ∉ w.1.book.held)
    (h : (f owned).run.Ends around w value) : (ownedAccount account user >>= f).run.Ends around w value := by
  refine Flow.Ends.getAccount ?_
  unfold Book.lock
  rw [ha]
  dsimp only
  rw [if_neg hf]
  dsimp only [Flow.bind, Except.mapError, ExceptT.bindCont]
  rw [if_neg (not_not_intro hu)]
  exact h

theorem accountHistory_ends (s : Service) (page : PageRequest)
    (ha : w.1.book.account? account = some owned) (hu : owned.owner = user)
    (hf : account ∉ w.1.book.held) : (s.accountHistory account user page).run.Ends around w
      (.ok ((w.1.table.history account (page.clamped s.retry.pageSizeMax)).map (·.view))) := by
  unfold accountHistory
  exact ownedAccount_passes ha hu hf ⟨[], rfl⟩

end Service

/-- For fewer than 2³² records and an account of the caller's that nobody holds: the pages of a size,
forced into its bounds, are the transactions of the account in order, up to the first empty page, which
has a number of 32 bits. No offset needs more than 64 bits. -/
theorem history_paginates (s : Service) (around : Elsewhere T) (size : Nat)
    (hids : (w.1.table.rows.map (·.id)).Nodup) (hfew : w.1.table.rows.length ≤ maxNat32)
    (ha : w.1.book.account? account = some owned) (hu : owned.owner = user)
    (hf : account ∉ w.1.book.held) (hmax : s.retry.pageSizeMax ≤ maxNat32) :
    ∃ (pages : Nat → Page TransactionView) (count : Nat) (records : List TransactionRecord),
      (∀ n, (s.accountHistory account user ⟨n, size⟩).run.Ends around w (.ok (pages n))) ∧
      w.1.table.Paginates account (PageRequest.clamped ⟨0, size⟩ s.retry.pageSizeMax).size pages count
        records ∧
      count ≤ maxNat32 ∧
      ∀ n ≤ maxNat32, (PageRequest.clamped ⟨n, size⟩ s.retry.pageSizeMax).offset ≤ maxNat64 := by
  have hsize := PageRequest.clamped_pos ⟨0, size⟩ s.retry.pageSizeMax
  refine ⟨_, _, _, fun n => Service.accountHistory_ends s ⟨n, size⟩ ha hu hf,
    TransactionTable.paginates_listing hids hsize, ?_, fun n hn => PageRequest.offset_le hn hmax⟩
  calc pageCount (w.1.table.listing account).length _
      ≤ (w.1.table.listing account).length := pageCount_le hsize
    _ ≤ w.1.table.rows.length := w.1.table.listing_length_le account
    _ ≤ maxNat32 := hfew

end

/-- A transfer and a deposit of one instant, a withdrawal that was moved back before both, and a deposit
to another account. -/
def sharedInstant : Stores where
  book := ((Book.openAccount {} 1 .usd hundred).2.openAccount 2 .usd hundred).2
  table :=
    { rows := [
        ⟨⟨1, some 1, some 2, .one, .one, .one, .usd, .transfer, some 1, "a"⟩, 1, .completed, .creditDone,
          .none, 1, none, 7, 8⟩,
        ⟨⟨1, none, some 1, .one, .one, .one, .usd, .deposit, none, "b"⟩, 2, .created, .none, .none, 0,
          none, 7, 7⟩,
        ⟨⟨1, some 1, none, .one, .one, .one, .usd, .withdraw, some 1, "c"⟩, 3, .failed, .none, .none, 1,
          some "Account 1 is not active", 3, 4⟩,
        ⟨⟨2, none, some 2, .one, .one, .one, .usd, .deposit, none, "d"⟩, 4, .completed, .none, .none, 1,
          none, 9, 9⟩]
      keys := [("a", 1), ("b", 2), ("c", 3), ("d", 4)] }

/-- Asked for none at a time, the owner is shown one. -/
theorem history_paginates_sharedInstant :
    (sharedInstant.table.rows.map (·.id)).Nodup ∧ sharedInstant.table.rows.length ≤ maxNat32 ∧
    sharedInstant.book.account? 1 = some ⟨1, 1, .usd, hundred, .active⟩ ∧
    1 ∉ sharedInstant.book.held ∧ plainService.retry.pageSizeMax ≤ maxNat32 ∧
    ∃ (pages : Nat → Page TransactionView) (count : Nat) (records : List TransactionRecord),
      (∀ n, (plainService.accountHistory 1 1 ⟨n, 0⟩).run.Ends silence (sharedInstant, ())
        (.ok (pages n))) ∧
      sharedInstant.table.Paginates 1 1 pages count records ∧ count ≤ maxNat32 := by
  have hids : (sharedInstant.table.rows.map (·.id)).Nodup := by decide
  have hfew : sharedInstant.table.rows.length ≤ maxNat32 := by decide
  have hfound : sharedInstant.book.account? 1 = some ⟨1, 1, .usd, hundred, .active⟩ := by
    decide +kernel
  have hfree : 1 ∉ sharedInstant.book.held := by decide
  have hmax : plainService.retry.pageSizeMax ≤ maxNat32 := by decide
  obtain ⟨pages, count, records, hends, hpages, hcount, -⟩ :=
    history_paginates (w := (sharedInstant, ())) plainService silence 0 hids hfew hfound rfl hfree hmax
  exact ⟨hids, hfew, hfound, hfree, hmax, pages, count, records, hends, hpages, hcount⟩

end Settlement
