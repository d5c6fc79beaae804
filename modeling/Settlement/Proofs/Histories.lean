import Settlement.Proofs.Pages
import Settlement.Proofs.TwoStores

/-!
The two statements behind a history: what they say, and what they bring back from tables of rows. Main
statements: a page from the database shows the records that the page from memory shows, and one whose
offset is sent as a negative number is turned down.
-/

namespace Settlement
namespace Sql

/-- A statement on the rows that meet at least one of some conditions. -/
inductive PagedQuery where
  | count (table : Relation) (conditions : List Condition)
  /-- Sorted by the columns, one after the other, each downwards. -/
  | page (table : Relation) (conditions : List Condition) (order : List String) (limit offset : Term)

namespace PagedQuery

def whereText (conditions : List Condition) : String :=
  " WHERE " ++ " OR ".intercalate (conditions.map Condition.text)

def text : PagedQuery → String
  | count table conditions => "SELECT COUNT(*) FROM " ++ table.name ++ whereText conditions
  | page table conditions order limit offset =>
    "SELECT " ++ listed (table.fields.map Field.name) ++ " FROM " ++ table.name ++
      whereText conditions ++ " ORDER BY " ++ listed (order.map (· ++ " DESC")) ++ " LIMIT " ++
      limit.text ++ " OFFSET " ++ offset.text

def eitherSide : List Condition :=
  [.equal "source_account_id" (.param 1), .equal "target_account_id" (.param 1)]

end PagedQuery

def Statement.pagedQuery? : Statement → Option PagedQuery
  | countHistory _ => some (.count .transactions PagedQuery.eitherSide)
  | selectHistory .. =>
    some (.page .transactions PagedQuery.eitherSide ["created_at", "tx_id"] (.param 2) (.param 3))
  | _ => none

/-- What is understood is what is sent. -/
theorem Statement.pagedQuery?_text {s : Statement} {q : PagedQuery} (h : s.pagedQuery? = some q) :
    q.text = s.text := by
  cases s
  all_goals cases h
  all_goals
    dsimp only [Statement.text]
    decide +kernel

namespace PagedQuery

def meetsAny (e : Reading) (conditions : List Condition) (row : Row) : Bool :=
  conditions.any (·.holds e row)

def descending : List String → Row → Row → Bool
  | [], _, _ => true
  | column :: columns, a, b =>
    (b.cell column).less (a.cell column) ||
      (!(a.cell column).less (b.cell column) && descending columns a b)

def skip (e : Reading) (offset : Term) (rows : List Row) : Except SqlError (List Row) :=
  match offset.eval e [] with
  | .int n =>
    if n < 0 then .error (.database (some "2201X") "OFFSET must not be negative")
    else .ok (rows.drop n.toNat)
  | _ => .ok rows

def picked (scan : Scan) (e : Reading) (conditions : List Condition) (rows : List Row) : List Row :=
  (scan.order rows).filter (meetsAny e conditions)

def run (scan : Scan) (e : Reading) (tables : Tables) : PagedQuery → Except SqlError Result
  | count table conditions =>
    let count := (picked scan e conditions (tables table)).length
    .ok ⟨[[(⟨"count", .int8⟩, .int count)]], 1⟩
  | page table conditions order limit offset => do
    let sorted := (picked scan e conditions (tables table)).mergeSort (descending order)
    let rows ← Query.cut e (some limit) (← skip e offset sorted)
    let items := table.fields.map fun f => Term.column f.name
    return ⟨rows.map fun row => items.map (Term.shown e row), rows.length⟩

section

variable {β : Type} {f : β → Row} {xs : List β} {p : β → Bool} {le : β → β → Bool} {scan : Scan}
  {e : Reading} {tables : Tables} {table : Relation} {conditions : List Condition}

/-- What is picked stands for what meets the condition, in some order. -/
theorem picked_map (scan : Scan) (xs : List β) (hp : ∀ x, meetsAny e conditions (f x) = p x) :
    ∃ ys : List β, ys.Perm (xs.filter p) ∧ picked scan e conditions (xs.map f) = ys.map f := by
  obtain ⟨zs, hz, hperm⟩ := List.perm_comp_forall₂ (scan.perm (xs.map f))
    (Query.forall₂_eq_map.mpr rfl)
  rw [Query.forall₂_eq_map] at hz
  refine ⟨zs.filter p, hperm.filter p, ?_⟩
  rw [picked, hz, List.filter_map]
  exact congrArg (fun q => (zs.filter q).map f) (funext hp)

theorem run_count (scan : Scan) (h : tables table = xs.map f)
    (hp : ∀ x, meetsAny e conditions (f x) = p x) : run scan e tables (.count table conditions) =
      .ok ⟨[[(⟨"count", .int8⟩, .int (xs.filter p).length)]], 1⟩ := by
  obtain ⟨ys, hperm, hpicked⟩ := picked_map scan xs hp
  rw [run, h, hpicked, List.length_map, hperm.length_eq]

/-- A page of what is sorted by an order that tells all apart. -/
theorem run_page {order : List String} {limit offset : Term} {size skipped : Nat} (scan : Scan)
    (h : tables table = xs.map f) (hp : ∀ x, meetsAny e conditions (f x) = p x)
    (hle : ∀ x y, descending order (f x) (f y) = le x y)
    (trans : ∀ x y z, le x y = true → le y z = true → le x z = true)
    (total : ∀ x y, (le x y || le y x) = true)
    (antisymm : ∀ x ∈ xs, ∀ y ∈ xs, le x y = true → le y x = true → x = y)
    (hl : limit.eval e [] = .int size) (ho : offset.eval e [] = .int skipped)
    (hs : ∀ x, (table.fields.map fun g => Term.column g.name).map (Term.shown e (f x)) = f x) :
    ∃ ys, ys = (((xs.filter p).mergeSort le).drop skipped).take size ∧
      run scan e tables (.page table conditions order limit offset) = .ok ⟨ys.map f, ys.length⟩ := by
  obtain ⟨zs, hperm, hpicked⟩ := picked_map scan xs hp
  -- The scan is forgotten here: the order leaves one sorted list.
  have hunique : zs.mergeSort le = (xs.filter p).mergeSort le := by
    refine List.Perm.eq_of_pairwise (fun x y hx hy hxy hyx => ?_)
      (List.pairwise_mergeSort trans total zs) (List.pairwise_mergeSort trans total _)
      (((zs.mergeSort_perm _).trans hperm).trans (List.mergeSort_perm _ _).symm)
    have hx := hperm.mem_iff.mp (List.mem_mergeSort.mp hx)
    have hy := List.mem_mergeSort.mp hy
    exact antisymm x (List.mem_of_mem_filter hx) y (List.mem_of_mem_filter hy) hxy hyx
  have hsorted : (zs.map f).mergeSort (descending order) = ((xs.filter p).mergeSort le).map f := by
    rw [← hunique]
    exact (List.map_mergeSort fun x _ y _ => (hle x y).symm).symm
  have hskip : ∀ rows, skip e offset rows = .ok (rows.drop skipped) := by
    intro rows
    simp only [skip, ho, if_neg (Int.not_lt.mpr (Int.natCast_nonneg skipped)), Int.toNat_natCast]
  have hcut : ∀ rows, Query.cut e (some limit) rows = .ok (rows.take size) := by
    intro rows
    simp only [Query.cut, Option.map_some, hl, if_neg (Int.not_lt.mpr (Int.natCast_nonneg size)),
      Int.toNat_natCast]
  have hshown : (fun row => (table.fields.map fun g => Term.column g.name).map (Term.shown e row)) ∘ f =
      f := funext hs
  refine ⟨_, rfl, ?_⟩
  simp only [run, h, hpicked, hsorted, hskip]
  show (Query.cut _ _ _ >>= _) = _
  rw [hcut, ← List.map_drop, ← List.map_take]
  show Except.ok _ = _
  rw [List.length_map, List.map_map, hshown]

/-- An offset that is negative is turned down before anything else is looked at. -/
theorem run_page_negative {order : List String} {limit offset : Term} {n : Int}
    (ho : offset.eval e [] = .int n) (hn : n < 0) :
    run scan e tables (.page table conditions order limit offset) =
      .error (.database (some "2201X") "OFFSET must not be negative") := by
  simp only [run, skip, ho, if_pos hn]
  rfl

end

end PagedQuery

namespace Site

/-- The surroundings of a server on whose tables somebody else answers the statements on histories. -/
@[irreducible]
def browsing (site : Site) (tables : Tables) : Site where
  scan := site.scan
  now := site.now
  others
    | .statement s =>
      (s.pagedQuery?).elim (site.others (.statement s)) (·.run site.scan (site.reading s) tables)
    | r => site.others r

section

open Session

variable {site : Site} {server : Server} {tables : Tables} {s : Statement} {q : PagedQuery}
  {broke : Server → Prop}

/-- A statement on histories is answered, and changes nothing. -/
theorem answer_browsing (hq : s.pagedQuery? = some q) :
    (site.browsing tables).answer (.statement s) server =
      (q.run site.scan (site.reading s) tables, server) := by
  have hnone : s.query? = none := by
    cases s <;> first | rfl | cases hq
  simp only [answer, hnone, browsing, hq, Option.elim_some]

theorem reports_browse {ok : Result → Server → Prop} {err : SqlError → Server → Prop}
    (hq : s.pagedQuery? = some q) : Reports (site.browsing tables).asking (send s) ok err broke server ↔
      Closes ok err broke server (.value (q.run site.scan (site.reading s) tables)) := by
  show Closes _ _ _ ((site.browsing tables).answer (.statement s) server).2
    (.value ((site.browsing tables).answer (.statement s) server).1) ↔ _
  rw [answer_browsing hq]

end
end Site

namespace Transactions

open Reports Session Fallible

section

variable {t : TransactionTable} {server : Server} {site : Site} {account : AccountId} {page : PageRequest}
  {err : ServiceError → Server → Prop} {broke : Server → Prop}

theorem equals_ofOption (o : Option Int) (n : Int) :
    (Arg.ofOption .int o).cell.equals (.int n) = (o == some n) := by
  cases o <;> simp [Arg.ofOption, Cell.equals]

/-- The account is the first parameter of both statements. -/
theorem eitherSide_meets (e : Reading) (he : e.params[0]? = some (.int account))
    (r : TransactionRecord) :
    PagedQuery.meetsAny e PagedQuery.eitherSide (recordRow r) =
      TransactionTable.touches account r := by
  simp [PagedQuery.meetsAny, PagedQuery.eitherSide, Condition.holds, Row.cell, recordRow, Term.eval, he,
    equals_ofOption, TransactionTable.touches]

theorem descending_newerFirst (a b : TransactionRecord) :
    PagedQuery.descending ["created_at", "tx_id"] (recordRow a) (recordRow b) =
      TransactionTable.newerFirst a b := by
  rw [Bool.eq_iff_iff, TransactionTable.newerFirst_iff]
  simp [PagedQuery.descending, Row.cell, recordRow]
  grind

theorem newerFirst_antisymm (hs : t.Sound) (a : TransactionRecord) (ha : a ∈ t.rows)
    (b : TransactionRecord) (hb : b ∈ t.rows) (hab : TransactionTable.newerFirst a b = true)
    (hba : TransactionTable.newerFirst b a = true) : a = b := by
  rw [TransactionTable.newerFirst_iff] at hab hba
  exact List.inj_on_of_nodup_map hs.ids ha hb (by grind)

/-- The number of the records is the one that is read. -/
theorem total_reports {ok : Int → Server → Prop} (h : Stands t server)
    (ho : ok (t.listing account).length server) :
    Reports (site.browsing server.tables).asking
      (forService do scalar (← fetchOne (.countHistory account)) .int64) ok err broke server := by
  have hrun := PagedQuery.run_count site.scan h.rows
    (eitherSide_meets (site.reading (.countHistory account)) rfl)
  unfold fetchOne fetchOptional fetchAll
  refine of_mapError.2 (of_bind.2 (of_bind.2 (of_bind.2 (of_map.2 ((Site.reports_browse rfl).2 ?_)))))
  rw [hrun]
  refine (reports_scalar_ok rfl).2 ?_
  rwa [TransactionTable.listing, List.length_mergeSort] at ho

/-- The page that is asked for shows the records of the history. -/
theorem run_history {e : Reading} {tables : Tables} (scan : Scan) (account : AccountId) (page : PageRequest)
    (ht : tables .transactions = t.rows.map recordRow) (hs : t.Sound)
    (ha : e.params[0]? = some (.int account)) (hl : (Term.param 2).eval e [] = .int page.size)
    (ho : (Term.param 3).eval e [] = .int page.offset) :
    PagedQuery.run scan e tables (.page .transactions PagedQuery.eitherSide ["created_at", "tx_id"]
        (.param 2) (.param 3)) =
      .ok ⟨(t.history account page).items.map recordRow, (t.history account page).items.length⟩ := by
  obtain ⟨rs, hrs, hrun⟩ := PagedQuery.run_page scan ht (eitherSide_meets e ha)
    descending_newerFirst TransactionTable.newerFirst_trans TransactionTable.newerFirst_total
    (newerFirst_antisymm hs) hl ho fun r => recordRow_shown _
  rw [hrun, hrs]
  rfl

/-- The page from memory and the page from the database show the same records. -/
theorem history_reports {ok : Page TransactionRecord → Server → Prop} (h : Stands t server)
    (hsize : page.size ≤ maxInt64) (hoffset : page.offset ≤ maxInt64)
    (ho : ∀ items, List.Forall₂ TransactionRecord.Alike (t.history account page).items items →
      ok ⟨items, page.page, page.size, (t.history account page).total⟩ server) :
    Reports (site.browsing server.tables).asking (history account page) ok err broke server := by
  let statement : Statement := .selectHistory account (signed64 page.size) (signed64 page.offset)
  have hl : (Term.param 2).eval (site.reading statement) [] = .int page.size :=
    congrArg Cell.int (signed64_of_le hsize)
  have hskipped : (Term.param 3).eval (site.reading statement) [] = .int page.offset :=
    congrArg Cell.int (signed64_of_le hoffset)
  have hrun := run_history site.scan account page h.rows h.sound rfl hl hskipped
  have htold : ∀ r ∈ (t.history account page).items, r.createdAt.Told ∧ r.updatedAt.Told := by
    intro r hr
    have hlisted : r ∈ t.listing account := List.mem_of_mem_drop (List.mem_of_mem_take hr)
    exact h.told r (TransactionTable.mem_listing.mp hlisted).1
  obtain ⟨items, hread, halike⟩ := ofRows_recordRows htold
  unfold history fetchAll
  refine of_bind.2 (total_reports h ?_)
  refine of_bind.2 (of_mapError.2 (of_map.2 ((Site.reports_browse rfl).2 ?_)))
  rw [hrun]
  dsimp only [Closes]
  rw [hread]
  exact ho items halike

/-- A page is not shown whose offset is sent as a negative number. -/
theorem history_refused {ok : Page TransactionRecord → Server → Prop} (h : Stands t server)
    (hlt : maxInt64 < page.offset) (hwide : page.offset ≤ maxNat64)
    (he : err (.database "error returned from database: OFFSET must not be negative") server) :
    Reports (site.browsing server.tables).asking (history account page) ok err broke server := by
  let statement : Statement := .selectHistory account (signed64 page.size) (signed64 page.offset)
  have hrun : PagedQuery.run site.scan (site.reading statement) server.tables (.page .transactions
      PagedQuery.eitherSide ["created_at", "tx_id"] (.param 2) (.param 3)) = .error _ :=
    PagedQuery.run_page_negative rfl (signed64_neg hlt hwide)
  unfold history fetchAll
  refine of_bind.2 (total_reports h ?_)
  refine of_bind.2 (of_mapError.2 (of_map.2 ((Site.reports_browse rfl).2 ?_)))
  rw [hrun]
  exact he

end

end Transactions
end Sql
end Settlement
