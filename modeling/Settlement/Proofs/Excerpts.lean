import Settlement.Proofs.Cutoffs
import Settlement.Proofs.Histories
import Settlement.Proofs.TwoLedgers
import Settlement.Sql.Backend

/-!
The parts of tables that are asked for by numbers of 64 bits: pages of histories and batches of stuck
records. The database reads the numbers with a sign. Main statement: a page or a batch from the database
is the one from memory exactly if its number is below 2⁶³, and is turned down otherwise.
-/

namespace Settlement

namespace PageRequest

theorem clamped_size_fits {r : PageRequest} {max : Nat} (hm : max ≤ maxNat32) :
    (r.clamped max).size ≤ maxInt64 :=
  Int.le_trans (Int.ofNat_le.mpr (clamped_size_le hm (by decide))) (by decide)

/-- All offsets are below 2⁶³ exactly if pages hold at most 2³¹ records. -/
theorem offsets_fit_iff {max : Nat} (hm : max ≤ maxNat32) :
    (∀ r : PageRequest, r.page ≤ maxNat32 → r.size ≤ maxNat32 → (r.clamped max).offset ≤ maxInt64) ↔
      max ≤ 2147483648 := by
  constructor
  · intro hall
    by_contra hlt
    have hlarge : 2147483649 ≤ max := Nat.not_le.mp hlt
    have hpos : 1 ≤ max := Nat.le_trans (m := 2147483649) (by decide) hlarge
    have hsize : ((⟨maxNat32, max⟩ : PageRequest).clamped max).size = max :=
      (Nat.min_self _).trans (Nat.max_eq_left hpos)
    have hfits := hall ⟨maxNat32, max⟩ (Nat.le_refl _) hm
    have hoffset : 4294967295 * 2147483649 ≤ ((⟨maxNat32, max⟩ : PageRequest).clamped max).offset := by
      rw [offset, hsize]
      exact Nat.mul_le_mul (Nat.le_refl _) hlarge
    exact absurd (Int.le_trans (Int.ofNat_le.mpr hoffset) hfits) (by decide)
  · intro hsmall r hpage _
    have hoffset : (r.clamped max).offset ≤ 4294967295 * 2147483648 :=
      Nat.mul_le_mul hpage (clamped_size_le hsmall (by decide))
    exact Int.le_trans (Int.ofNat_le.mpr hoffset) (by decide)

end PageRequest

namespace Sql

/-- How a number of 64 bits arrives where it is read with a sign. -/
structure Arrives (n : Nat) (read : Int) : Prop where
  intact_iff : 0 ≤ read ∧ read = n ↔ n ≤ maxInt64
  wrapped : maxInt64 < n → read = n - 18446744073709551616

theorem arrives_signed64 {n : Nat} (hw : n ≤ maxNat64) : Arrives n (signed64 n) where
  intact_iff := by
    refine ⟨fun h => ?_, fun h => ?_⟩
    · by_contra hlt
      exact absurd (signed64_neg (Int.not_le.mp hlt) hw) (Int.not_lt.mpr h.1)
    · rw [signed64_of_le h]
      exact ⟨Int.natCast_nonneg n, rfl⟩
  wrapped h := signed64_of_lt h hw

section

variable {among : Request → Prop} {ε α : Type}

open Fallible Session

namespace Ledger

theorem asks_ofSql {account : AccountId} {e : SqlError} :
    AsksOnly among (ofSql account e : Session ε LedgerError) := by
  unfold ofSql
  split <;> exact trivial

theorem asks_onAccount {account : AccountId} {p : Session SqlError α} (hp : AsksOnly among p) :
    AsksOnly among (onAccount account p) := by
  refine hp.attempt.bind fun result => ?_
  cases result with
  | ok => exact trivial
  | error => exact asks_ofSql.bind fun _ => trivial

theorem asks_getAccount {account : AccountId} (hs : among (.statement (.selectAccount account))) :
    AsksOnly among (getAccount account) := by
  refine (asks_onAccount (asks_fetchOptional hs)).bind fun row => ?_
  cases row with
  | none => exact trivial
  | some row =>
    refine asks_column.bind fun code => ?_
    split
    · exact trivial
    · refine asks_column.bind fun status => ?_
      split
      · exact trivial
      · refine asks_instantColumn.bind fun _ => asks_column.bind fun _ => ?_
        exact asks_column.bind fun _ => asks_column.bind fun _ => trivial

/-- An account that is found. -/
theorem getAccount_answered (account : AccountId) (user : UserId) : ∃ reply owned,
    owned.owner = user ∧ (getAccount account).run.Answered [⟨.statement (.selectAccount account), reply⟩]
      (.value (.ok owned)) := by
  let row := accountRow ⟨account, user, .usd, .zero, .active⟩ ⟨0, 0⟩ 0
  have hcurrency : (column row "currency" .text : Session LedgerError String) = pure "USD" := rfl
  have hstatus : (column row "status" .int16 : Session LedgerError Int) = pure 1 := rfl
  have hcreated : (instantColumn row "created_at" : Session LedgerError Instant) = pure 0 := rfl
  have hid : (column row "account_id" .int64 : Session LedgerError Int) = pure account := rfl
  have howner : (column row "owner_id" .int64 : Session LedgerError Int) = pure user := rfl
  have hbalance : (column row "balance" .decimal : Session LedgerError Decimal) = pure .zero := rfl
  have husd : Currency.read "USD" = .ok .usd := rfl
  have hactive : AccountStatus.ofId? 1 = some .active := rfl
  clear_value row
  have hfound : (onAccount account (fetchOptional (.selectAccount account))).run.Answered
      [⟨.statement (.selectAccount account), .ok ⟨[row], 1⟩⟩] (.value (.ok (some row))) := .ask _ (.done _)
  refine ⟨.ok ⟨[row], 1⟩, ⟨account, user, .usd, .zero, .active⟩, rfl, answered_bind hfound ?_⟩
  simp only [hcurrency, hstatus, hcreated, hid, howner, hbalance, husd, hactive, pure_bind]
  exact .done _

end Ledger

namespace Transactions

theorem asks_stateColumn {row : Row} {name complaint : String} {ofId? : Int → Option α} :
    AsksOnly among (stateColumn row name complaint ofId?) := by
  refine asks_column.bind fun id => ?_
  split <;> exact trivial

theorem asks_ofRow {row : Row} : AsksOnly among (ofRow row) := by
  refine asks_column.bind fun code => ?_
  split
  · exact trivial
  · refine asks_stateColumn.bind fun _ => asks_stateColumn.bind fun _ => ?_
    refine asks_stateColumn.bind fun _ => asks_stateColumn.bind fun _ => ?_
    iterate 11 refine asks_column.bind fun _ => ?_
    exact asks_instantColumn.bind fun _ => asks_instantColumn.bind fun _ => trivial

theorem asks_history {account : AccountId} {page : PageRequest}
    (hc : among (.statement (.countHistory account)))
    (hs : among (.statement (.selectHistory account (signed64 page.size) (signed64 page.offset)))) :
    AsksOnly among (history account page) := by
  refine AsksOnly.bind (((asks_fetchOne hc).bind fun _ => asks_scalar).mapError _) fun _ => ?_
  refine AsksOnly.bind (((asks_send hs).map _).mapError _) fun rows => ?_
  exact (AsksOnly.mapM (fun _ => asks_ofRow) rows).bind fun _ => trivial

/-- A page of no records. -/
theorem history_answered (account : AccountId) (page : PageRequest) : ∃ count reply,
    (history account page).run.Answered [⟨.statement (.countHistory account), count⟩,
        ⟨.statement (.selectHistory account (signed64 page.size) (signed64 page.offset)), reply⟩]
      (.value (.ok ⟨[], page.page, page.size, 0⟩)) :=
  ⟨.ok ⟨[[(⟨"count", .int8⟩, .int 0)]], 1⟩, .ok ⟨[], 0⟩, .ask _ (.ask _ (.done _))⟩

end Transactions

def ForPage (account : AccountId) (page : PageRequest) (r : Request) : Prop :=
  ∀ a limit offset, r = .statement (.selectHistory a limit offset) →
    a = account ∧ limit = page.size ∧ Arrives page.offset offset

theorem forPage_sent (account : AccountId) {page : PageRequest} (hsize : page.size ≤ maxInt64)
    (hwide : page.offset ≤ maxNat64) : ForPage account page
      (.statement (.selectHistory account (signed64 page.size) (signed64 page.offset))) := by
  rintro a limit offset ⟨⟩
  exact ⟨rfl, signed64_of_le hsize, arrives_signed64 hwide⟩

structure SendsPage (x : Flow Request Request.Answer α) (account : AccountId) (page : PageRequest) :
    Prop where
  some : ∃ es outcome, x.Answered es outcome ∧
    ∃ e ∈ es, ∃ limit offset, e.question = .statement (.selectHistory account limit offset)
  only : ∀ es outcome, x.Answered es outcome → ∀ e ∈ es, ForPage account page e.question

/-- Whatever is answered: unless the timeout is too long, the clock is read, and unless it leads out of
the calendar, a batch is asked for by it and by its size, as it arrives. -/
def SendsBatch (x : Flow Request Request.Answer α) (timeoutSecs batchSize : Nat) : Prop :=
  ∀ es outcome, x.Answered es outcome →
    (maxInt64 < timeoutSecs * 1000 → es = []) ∧
    (timeoutSecs * 1000 ≤ maxInt64 → ∃ now rest, es = ⟨.now, now⟩ :: rest ∧
      (now - timeoutSecs * 1000000 < Instant.first → rest = []) ∧
      (Instant.first ≤ now - timeoutSecs * 1000000 → ∃ limit reply later,
        rest = ⟨.statement (.findStuck (now - timeoutSecs * 1000000) limit), reply⟩ :: later ∧
          Arrives batchSize limit))

def OfHistory (account : AccountId) (page : PageRequest) (call : Call) : Prop :=
  call = .ledger (.getAccount account) ∨ call = .store (.history account page)

theorem accountHistory_asks {s : Service} {account : AccountId} {user : UserId} {request : PageRequest} :
    AsksOnly (OfHistory account (request.clamped s.retry.pageSizeMax))
      (s.accountHistory account user request) := by
  have hfound : AsksOnly (OfHistory account (request.clamped s.retry.pageSizeMax))
      (Program.getAccount account) := by
    refine ⟨.inl rfl, fun found => ?_⟩
    cases found <;> exact trivial
  refine AsksOnly.bind (AsksOnly.bind (hfound.mapError _) fun owned => ?_) fun _ => ?_
  · split <;> exact trivial
  · refine AsksOnly.bind ⟨.inr rfl, fun records => ?_⟩ fun _ => trivial
    cases records <;> exact trivial

theorem session_asks_page (s : Service) (lockTimeoutMs : Nat) (account : AccountId) (user : UserId)
    (request : PageRequest) : ∃ es outcome,
      (session lockTimeoutMs (s.accountHistory account user request)).run.Answered es outcome ∧
      ∃ e ∈ es, ∃ limit offset, e.question = .statement (.selectHistory account limit offset) := by
  let page := request.clamped s.retry.pageSizeMax
  obtain ⟨found, owned, howned, hfound⟩ := Ledger.getAccount_answered account user
  obtain ⟨count, reply, hshown⟩ := Transactions.history_answered account page
  have hway : (session lockTimeoutMs (s.accountHistory account user request)).run.Answered
      [⟨.statement (.selectAccount account), found⟩, ⟨.statement (.countHistory account), count⟩,
        ⟨.statement (.selectHistory account (signed64 page.size) (signed64 page.offset)), reply⟩]
      (.value (.ok ⟨[], page.page, page.size, 0⟩)) := by
    refine hfound.bind ?_
    dsimp only [Flow.through, Flow.bind, Except.mapError, ExceptT.bindCont]
    rw [if_neg (not_not_intro howned)]
    exact hshown.bind (.done _)
  exact ⟨_, _, hway, _, List.mem_cons_of_mem _ (List.mem_cons_of_mem _ List.mem_cons_self), _, _, rfl⟩

theorem session_sendsPage {s : Service} {account : AccountId} {user : UserId} {request : PageRequest}
    {lockTimeoutMs : Nat} (hpage : request.page ≤ maxNat32) (hmax : s.retry.pageSizeMax ≤ maxNat32) :
    SendsPage (session lockTimeoutMs (s.accountHistory account user request)).run account
      (request.clamped s.retry.pageSizeMax) := by
  have hsent := forPage_sent account (PageRequest.clamped_size_fits (r := request) hmax)
    (PageRequest.offset_le hpage hmax)
  have hasks : AsksOnly (ForPage account (request.clamped s.retry.pageSizeMax))
      (session lockTimeoutMs (s.accountHistory account user request)) := by
    refine asks_run.mp (Flow.AsksOnly.through (asks_run.mpr accountHistory_asks) ?_)
    rintro call (rfl | rfl)
    · exact asks_run.mpr (Ledger.asks_getAccount fun _ _ _ h => by cases h)
    · exact asks_run.mpr (Transactions.asks_history (fun _ _ _ h => by cases h) hsent)
  exact ⟨session_asks_page .., fun es outcome hx => (asks_run.mpr hasks).answered hx⟩

theorem session_sendsBatch {s : Service} {settings : SweepSettings} {lockTimeoutMs : Nat}
    (hbatch : settings.batchSize ≤ maxNat64) : SendsBatch (session lockTimeoutMs (s.sweep settings)).run
      settings.processingTimeoutSecs settings.batchSize := by
  intro es outcome h
  unfold Service.sweep at h
  unfold Service.cutoff at h
  split at h
  next hlong =>
    cases h
    exact ⟨fun _ => rfl, fun hshort => absurd hshort (Int.not_le.mpr hlong)⟩
  next hshort =>
    refine ⟨fun hlong => absurd hlong hshort, fun _ => ?_⟩
    cases h with
    | ask now later =>
      let back := now - settings.processingTimeoutSecs * 1000000
      have hback : (session lockTimeoutMs ((if back < Instant.first then
          breakOff "`DateTime - TimeDelta` overflowed"
        else pure back : Program ServiceError Instant) >>= s.sweepSince settings)).run.Answered _ _ :=
          later
      refine ⟨now, _, rfl, fun hearly => ?_, fun hinside => ?_⟩
      · rw [if_pos hearly] at hback
        cases hback
        rfl
      · rw [if_neg (Int.not_lt.mpr hinside)] at hback
        cases hback with
        | ask reply => exact ⟨_, reply, _, rfl, arrives_signed64 hbatch⟩

end

namespace Transactions

open Reports Session Fallible

section

variable {t : TransactionTable} {server : Server} {site : Site} {account : AccountId} {page : PageRequest}
  {cutoff : Instant} {limit : Nat}

/-- A batch is not brought back whose limit is sent as a negative number. -/
theorem findStuck_refused {ok : List TransactionRecord → Server → Prop}
    {err : ServiceError → Server → Prop} {broke : Server → Prop} (h : Stands t server)
    (hlt : maxInt64 < limit) (hwide : limit ≤ maxNat64)
    (he : err (.database "error returned from database: LIMIT must not be negative") server) :
    Reports site.asking (findStuck cutoff limit) ok err broke server := by
  unfold findStuck fetchAll
  refine of_bind.2 (of_mapError.2 (of_map.2 ((Site.reports_send_error rfl h.seen
    (Query.run_negative rfl (signed64_neg hlt hwide))).2 ?_)))
  rw [Server.fail, h.idle]
  exact he

structure PageFetched (site : Site) (t : TransactionTable) (server : Server) (account : AccountId)
    (page : PageRequest) : Prop where
  same_iff : AnsweredAlike (.history account page) (t.answer site.now (.history account page)).1
    (site.serve (answer (.history account page)) server).1 ↔ page.offset ≤ maxInt64
  refused : maxInt64 < page.offset → site.serve (answer (.history account page)) server =
    (.value (.error (.database "error returned from database: OFFSET must not be negative")), server)

/-- What it sends back for a batch. Which of the records come first that were touched at one instant
is left open. -/
structure BatchFetched (site : Site) (t : TransactionTable) (server : Server) (cutoff : Instant)
    (limit : Nat) : Prop where
  selects_iff : (∃ batch rs, (site.serve (answer (.findStuck cutoff limit)) server).1 = .value (.ok rs) ∧
    t.Selects cutoff limit batch ∧ List.Forall₂ TransactionRecord.Alike batch rs) ↔ limit ≤ maxInt64
  same_iff : ((t.waiting cutoff).map (·.updatedAt)).Nodup →
    (AnsweredAlike (.findStuck cutoff limit) (t.answer site.now (.findStuck cutoff limit)).1
      (site.serve (answer (.findStuck cutoff limit)) server).1 ↔ limit ≤ maxInt64)
  refused : maxInt64 < limit → site.serve (answer (.findStuck cutoff limit)) server =
    (.value (.error (.database "error returned from database: LIMIT must not be negative")), server)

theorem page_fetched (h : Stands t server) (hsize : page.size ≤ maxInt64) (hwide : page.offset ≤ maxNat64) :
    PageFetched (site.browsing server.tables) t server account page := by
  have hrefused (hlt : maxInt64 < page.offset) :
      (site.browsing server.tables).serve (answer (.history account page)) server =
        (.value (.error (.database "error returned from database: OFFSET must not be negative")), server) :=
    Site.serve_error (history_refused h hlt hwide ⟨rfl, rfl⟩)
  refine ⟨⟨fun hsame => ?_, fun hle => ?_⟩, hrefused⟩
  · by_contra hlt
    rw [hrefused (Int.not_le.mp hlt)] at hsame
    cases hsame
  · exact ((site.browsing server.tables).serve_of_reports (Concludes _ _)
      (history_reports h hsize hle fun _ halike => ⟨.value ⟨halike, rfl, rfl, rfl⟩, h⟩)).1

theorem batch_fetched (h : Stands t server) (hwide : limit ≤ maxNat64) :
    BatchFetched site t server cutoff limit := by
  have hrefused (hlt : maxInt64 < limit) : site.serve (answer (.findStuck cutoff limit)) server =
      (.value (.error (.database "error returned from database: LIMIT must not be negative")), server) :=
    Site.serve_error (findStuck_refused h hlt hwide ⟨rfl, rfl⟩)
  have hselected (hle : limit ≤ maxInt64) : ∃ batch rs,
      (site.serve (answer (.findStuck cutoff limit)) server).1 = .value (.ok rs) ∧
        t.Selects cutoff limit batch ∧ List.Forall₂ TransactionRecord.Alike batch rs :=
    site.serve_of_reports (fun outcome _ => ∃ batch rs, outcome = .value (.ok rs) ∧
        t.Selects cutoff limit batch ∧ List.Forall₂ TransactionRecord.Alike batch rs)
      (findStuck_reports h hle fun batch rs hselects halike => ⟨batch, rs, rfl, hselects, halike⟩)
  refine ⟨⟨?_, hselected⟩, fun hd => ⟨fun hsame => ?_, fun hle => ?_⟩, hrefused⟩
  · rintro ⟨batch, rs, hserved, -⟩
    by_contra hlt
    rw [hrefused (Int.not_le.mp hlt)] at hserved
    cases hserved
  · by_contra hlt
    rw [hrefused (Int.not_le.mp hlt)] at hsame
    cases hsame
  · obtain ⟨batch, rs, hserved, hselects, halike⟩ := hselected hle
    rw [hserved]
    exact .value (hselects.eq_findStuck hd ▸ halike)

end

/-- What is sent for a page and for a batch, and what comes of it. The size of a page always arrives,
an offset and the size of a batch exactly if they are below 2⁶³; that decides whether the database
answers as memory does. All offsets are below 2⁶³ exactly if the largest page holds at most 2³¹ records. -/
theorem excerpts_agree_iff {t : TransactionTable} {server : Server} (h : Stands t server) (site : Site)
    (s : Service) (lockTimeoutMs : Nat) (account : AccountId) (user : UserId) (request : PageRequest)
    (settings : SweepSettings) (cutoff : Instant) (hpage : request.page ≤ maxNat32)
    (hmax : s.retry.pageSizeMax ≤ maxNat32) (hbatch : settings.batchSize ≤ maxNat64) :
    SendsPage (session lockTimeoutMs (s.accountHistory account user request)).run account
      (request.clamped s.retry.pageSizeMax) ∧
    SendsBatch (session lockTimeoutMs (s.sweep settings)).run settings.processingTimeoutSecs
      settings.batchSize ∧
    PageFetched (site.browsing server.tables) t server account (request.clamped s.retry.pageSizeMax) ∧
    BatchFetched site t server cutoff settings.batchSize ∧
    ((∀ r : PageRequest, r.page ≤ maxNat32 → r.size ≤ maxNat32 →
      (r.clamped s.retry.pageSizeMax).offset ≤ maxInt64) ↔ s.retry.pageSizeMax ≤ 2147483648) :=
  ⟨session_sendsPage hpage hmax, session_sendsBatch hbatch,
    page_fetched h (PageRequest.clamped_size_fits hmax) (PageRequest.offset_le hpage hmax),
    batch_fetched h hbatch, PageRequest.offsets_fit_iff hmax⟩

def waitingServer : Server :=
  ⟨Function.update (fun _ => []) .transactions (TransactionTable.waitingPair.rows.map recordRow), .none⟩

theorem stands_waitingServer : Stands TransactionTable.waitingPair waitingServer where
  idle := rfl
  rows := rfl
  sound := TransactionTable.sound_waitingPair
  told := by decide

/-- The first page and a batch of a hundred, as they come by default. -/
theorem excerpts_agree_waitingServer : Stands TransactionTable.waitingPair waitingServer ∧
    SendsPage (session 5000 (plainService.accountHistory 1 1 .default)).run 1 .default ∧
    SendsBatch (session 5000 (plainService.sweep ⟨1000, 3600, 100⟩)).run 3600 100 ∧
    AnsweredAlike (.history 1 .default) (TransactionTable.waitingPair.answer 6 (.history 1 .default)).1
      (((Site.plain 6).browsing waitingServer.tables).serve (answer (.history 1 .default))
        waitingServer).1 ∧
    AnsweredAlike (.findStuck 6 100) (TransactionTable.waitingPair.answer 6 (.findStuck 6 100)).1
      ((Site.plain 6).serve (answer (.findStuck 6 100)) waitingServer).1 := by
  obtain ⟨hpage, hbatch, hfetched, hselected, -⟩ := excerpts_agree_iff stands_waitingServer (.plain 6)
    plainService 5000 1 1 .default ⟨1000, 3600, 100⟩ 6 (by decide) (by decide) (by decide)
  exact ⟨stands_waitingServer, hpage, hbatch, hfetched.same_iff.mpr (by decide),
    (hselected.same_iff (by decide)).mpr (by decide)⟩

def noRows : Server := ⟨fun _ => [], .none⟩

theorem stands_noRows : Stands {} noRows :=
  ⟨rfl, rfl, TransactionTable.sound_empty, fun _ hr => by cases hr⟩

def noRowsSite : Site := (Site.plain 0).browsing noRows.tables

def ownAccount : (r : Request) → r.Answer
  | .statement (.selectAccount _) =>
    .ok ⟨[accountRow ⟨1, 1, .usd, hundred, .active⟩ (.ofDecimal hundred) 0], 1⟩
  | r => (noRowsSite.answer r noRows).1

def wideService : Service := { plainService with retry := { pageSizeMax := 4294967295 } }

def lastPage : PageRequest := ⟨4294967295, 4294967295⟩

/-- The last of the largest pages is asked for by a negative offset, and a batch of 2⁶³ by a negative
size. Memory answers both, the database neither. -/
theorem lastPage_refused :
    (((session 5000 (wideService.accountHistory 1 1 lastPage)).run.heard ownAccount).1.map
        Exchange.question =
      [.statement (.selectAccount 1), .statement (.countHistory 1),
        .statement (.selectHistory 1 4294967295 (-8589934591))] ∧
    (TransactionTable.answer 0 (.history 1 lastPage) {}).1 =
      .value (.ok ⟨[], 4294967295, 4294967295, 0⟩) ∧
    noRowsSite.serve (answer (.history 1 lastPage)) noRows = (.value (.error (.database
      "error returned from database: OFFSET must not be negative")), noRows)) ∧
    ((answer (.findStuck 0 9223372036854775808)).heard fun r => (noRowsSite.answer r noRows).1).1.map
        Exchange.question =
      [.statement (.findStuck 0 (-9223372036854775808))] ∧
    (TransactionTable.answer 0 (.findStuck 0 9223372036854775808) {}).1 = .value (.ok []) ∧
    noRowsSite.serve (answer (.findStuck 0 9223372036854775808)) noRows = (.value (.error (.database
      "error returned from database: LIMIT must not be negative")), noRows) := by
  refine ⟨⟨by decide +kernel, ?_, ?_⟩, by decide +kernel, ?_, ?_⟩
  · simp [TransactionTable.answer, TransactionTable.history, lastPage]
  · exact (page_fetched stands_noRows (by decide) (by decide)).refused (by decide)
  · simp [TransactionTable.answer, TransactionTable.findStuck]
  · exact (batch_fetched stands_noRows (by decide)).refused (by decide)

end Transactions

end Sql
end Settlement
