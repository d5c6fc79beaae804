import Settlement.Proofs.Agreement
import Settlement.Proofs.TransactionRows
import Settlement.Proofs.Waiting

/-!
The transaction store in memory beside the one in a database. Main statements: each call gets the same
answer from both, and every stored row is read as the record in memory.
-/

namespace Settlement
namespace TransactionTable

/-- Where no record meets a condition, none is counted and none is written. -/
theorem none_written {rows : List TransactionRecord} {p : TransactionRecord → Bool}
    {f : TransactionRecord → TransactionRecord} (h : ∀ r ∈ rows, p r = false) :
    false = decide (0 < rows.countP p) ∧ rows = rows.map fun r => if p r then f r else r := by
  have hcount : rows.countP p = 0 := List.countP_eq_zero.mpr fun r hr => by simp [h r hr]
  have hmap : (rows.map fun r => if p r then f r else r) = rows.map fun r => r :=
    List.map_congr_left fun r hr => by rw [h r hr, if_neg Bool.false_ne_true]
  rw [hcount, hmap, List.map_id']
  exact ⟨rfl, rfl⟩

/-- A conditional write, said of all rows at once. -/
theorem Sound.update_rows {t : TransactionTable} (hs : t.Sound) (id : TransactionId) (w : Write)
    (now : Instant) :
    (t.update id w.allows (w.apply now)).1 =
        decide (0 < t.rows.countP fun r => r.id == id && w.allows r) ∧
      (t.update id w.allows (w.apply now)).2.rows =
        t.rows.map fun r => if r.id == id && w.allows r then w.apply now r else r := by
  unfold update
  cases hr : t.row? id with
  | none =>
    refine none_written fun r hm => ?_
    have hne := List.find?_eq_none.mp hr r hm
    simp only [Bool.eq_false_iff.mpr hne, Bool.false_and]
  | some r' =>
    obtain ⟨hm', hid'⟩ := mem_of_row? hr
    -- Ids are unique, so the row found first is the only one to be counted and written.
    have hone : ∀ r ∈ t.rows, r.id = id → r = r' := by
      intro r hm hid
      rw [← hid, hs.row?_of_mem hm, Option.some.injEq] at hr
      exact hr
    by_cases ha : w.allows r' = true
    · simp only [ha, if_true]
      constructor
      · have hpos : 0 < t.rows.countP fun r => r.id == id && w.allows r :=
          List.countP_pos_iff.mpr ⟨r', hm', by simp [hid', ha]⟩
        rw [decide_eq_true hpos]
      · refine List.map_congr_left fun r hm => ?_
        by_cases hid : r.id = id
        · rw [hone r hm hid]
          simp [hid', ha]
        · simp [hid]
    · simp only [ha]
      refine none_written fun r hm => ?_
      by_cases hid : r.id = id
      · rw [hone r hm hid, hid']
        simpa using ha
      · simp [hid]

/-- A key that no record has is not found. -/
theorem Sound.lookup_eq_none {t : TransactionTable} {key : String} (hs : t.Sound)
    (hk : ∀ r ∈ t.rows, r.key ≠ key) : t.keys.lookup key = none := by
  rw [List.lookup_eq_none_iff, hs.index]
  intro x hx
  obtain ⟨r, hr, rfl⟩ := List.mem_map.mp hx
  simpa using Ne.symm (hk r hr)

theorem Sound.exists_key {t : TransactionTable} {key : String} (hs : t.Sound)
    (hk : (t.keys.lookup key).isSome = true) : ∃ r ∈ t.rows, r.key = key := by
  by_contra hnone
  push Not at hnone
  rw [hs.lookup_eq_none hnone] at hk
  cases hk

end TransactionTable

namespace Sql
namespace Transactions

open Reports Session Fallible

/-- An idle server with the rows of the records, whose times are all in the calendar. -/
structure Stands (t : TransactionTable) (server : Server) : Prop where
  idle : server.work = .none
  rows : server.tables .transactions = t.rows.map recordRow
  sound : t.Sound
  told : ∀ r ∈ t.rows, r.createdAt.Told ∧ r.updatedAt.Told

section

variable {t : TransactionTable} {server : Server} {site : Site} {err : ServiceError → Server → Prop}
  {broke : Server → Prop}

theorem Stands.seen (h : Stands t server) : server.seen? = some server.tables := by
  rw [Server.seen?, h.idle]

theorem Stands.holds (h : Stands t server) :
    List.Forall₂ (fun row r => row = recordRow r) (server.tables .transactions) t.rows :=
  Query.forall₂_eq_map.mpr h.rows

/-- The record with a key is read, if there is one. -/
theorem reports_record {s : Statement} {condition : Condition} {p : TransactionRecord → Bool}
    {ok : Option TransactionRecord → Server → Prop} (h : Stands t server)
    (hq : s.query? = some (Statement.records [condition] none none))
    (hp : ∀ r, condition.holds (site.reading s) (recordRow r) = p r)
    (hnone : (∀ r ∈ t.rows, p r = false) → ok none server)
    (hsome : ∀ r ∈ t.rows, p r = true → ∀ r', r.Alike r' → ok (some r') server) :
    Reports site.asking (forService (fetchOptional s) >>= ofRow?) ok err broke server := by
  refine of_bind.2 (of_mapError.2 (Site.reports_fetchOptional hq h.seen h.holds (p := p)
    (S := fun row r => row = recordRow r) ?_ ?_ hnone ?_))
  · rintro _ r rfl
    simp only [meets, List.all_cons, List.all_nil, Bool.and_true, hp]
  · rintro _ r rfl
    exact recordRow_shown _
  · rintro _ r rfl hr hpr
    have hread := ofRow_recordRow (h.told r hr).1 (h.told r hr).2
    cases hread with
    | intro r' hread =>
      rw [ofRow?, hread.1]
      exact hsome r hr hpr r' hread.2

theorem get_reports {ok : Option TransactionRecord → Server → Prop} (h : Stands t server)
    (id : TransactionId) (ho : ∀ o, Option.Rel TransactionRecord.Alike (t.row? id) o → ok o server) :
    Reports site.asking (get id) ok err broke server := by
  refine reports_record h rfl (p := (·.id == id)) (fun r => equal_id _ id 1 rfl) ?_ ?_
  · intro hnone
    have hrow : t.row? id = none := List.find?_eq_none.mpr fun r hr => by simpa using hnone r hr
    refine ho none ?_
    rw [hrow]
    exact .none
  · intro r hr hid r' halike
    refine ho (some r') ?_
    rw [← eq_of_beq hid, h.sound.row?_of_mem hr]
    exact .some halike

theorem getByKey_reports {ok : Option TransactionRecord → Server → Prop} (h : Stands t server)
    (key : String)
    (ho : ∀ o, Option.Rel TransactionRecord.Alike (t.rowByKey? key) o → ok o server) :
    Reports site.asking (getByKey key) ok err broke server := by
  have hp : ∀ r, (Condition.equal "idempotency_key" (.param 1)).holds
      (site.reading (.selectByKey key)) (recordRow r) = (r.key == key) := by
    intro r
    simp [Condition.holds, Row.cell, recordRow, Term.eval, Site.reading, Statement.args]
  refine reports_record h rfl (p := (·.key == key)) hp ?_ ?_
  · intro hnone
    have hkey : t.keys.lookup key = none :=
      h.sound.lookup_eq_none fun r hr => by simpa using hnone r hr
    have hrow : t.rowByKey? key = none := by
      rw [TransactionTable.rowByKey?, hkey, Option.bind_none]
    refine ho none ?_
    rw [hrow]
    exact .none
  · intro r hr hk r' halike
    refine ho (some r') ?_
    rw [← eq_of_beq hk, h.sound.rowByKey?_of_row? (h.sound.row?_of_mem hr)]
    exact .some halike

/-- The table of transactions has changed. -/
theorem Stands.leave {t' : TransactionTable} {rows : List Row} (h : Stands t server)
    (hr : rows = t'.rows.map recordRow) (hs : t'.Sound)
    (ht : ∀ r ∈ t'.rows, r.createdAt.Told ∧ r.updatedAt.Told) :
    Stands t' (server.leave (Function.update server.tables .transactions rows)) := by
  rw [Server.leave, h.idle]
  exact ⟨rfl, (Function.update_self Relation.transactions rows server.tables).trans hr, hs, ht⟩

/-- What a write leaves is told of in the calendar. -/
theorem apply_told {r : TransactionRecord} {now : Instant} (w : Write) (hn : now.Told)
    (hr : r.createdAt.Told) :
    (w.apply now r).createdAt.Told ∧ (w.apply now r).updatedAt.Told := by
  cases w <;> exact ⟨hr, hn⟩

/-- A conditional write is done in both or in neither. -/
theorem changed_reports {ok : Bool → Server → Prop} (h : Stands t server) (hn : site.now.Told)
    (id : TransactionId) (w : Write)
    (ho : ∀ server', Stands (t.update id w.allows (w.apply site.now)).2 server' →
      ok (t.update id w.allows (w.apply site.now)).1 server') :
    Reports site.asking (changed (statementOf id w)) ok err broke server := by
  obtain ⟨changes, conditions, hq, hp, hwritten⟩ := statementOf_query site id w
  have hmeets : ∀ row r, row = recordRow r →
      meets (site.reading (statementOf id w)) conditions row = (r.id == id && w.allows r) := by
    rintro _ r rfl
    exact hp r
  have hwrite : ∀ row r, row = recordRow r → r ∈ t.rows → (r.id == id && w.allows r) = true →
      Query.written (site.reading (statementOf id w)) changes row =
        recordRow (w.apply site.now r) := by
    rintro _ r rfl - -
    exact hwritten r
  have hfault : ∀ row r, row = recordRow r → Relation.transactions.fault? row = none := by
    rintro _ r rfl
    exact recordRow_fault r
  have hrows := Query.updated_matches h.holds hmeets hwrite
  obtain ⟨hdone, hupdated⟩ := h.sound.update_rows id w site.now
  unfold changed
  refine of_bind.2 (of_mapError.2 (Site.reports_execute hq h.seen
    (Query.run_update h.holds hmeets hwrite hfault) ?_))
  dsimp only
  rw [of_pure, ← hdone]
  refine ho _ (h.leave ?_ (h.sound.write (t.update_written id w site.now)) ?_)
  · rw [hupdated]
    exact Query.forall₂_eq_map.mp hrows
  · rw [hupdated]
    intro r hr
    obtain ⟨old, hm, rfl⟩ := List.mem_map.mp hr
    split
    · exact apply_told w hn (h.told old hm).1
    · exact h.told old hm

/-- What an insertion makes of a key that is new. -/
theorem Stands.insert_fresh {new : NewTransaction} (h : Stands t server) (hn : site.now.Told)
    (hk : (t.keys.lookup new.key).isSome = false) :
    (t.insert new site.now).1 =
        .inserted (TransactionTable.fresh new (t.rows.length + 1) site.now) ∧
      TransactionTable.fresh new (t.rows.length + 1) site.now ∈ (t.insert new site.now).2.rows ∧
      Stands (t.insert new site.now).2 (server.leave (Function.update server.tables .transactions
        (server.tables .transactions ++
          [recordRow (TransactionTable.fresh new (t.rows.length + 1) site.now)]))) := by
  have hi := h.sound.inserted new site.now
  rw [TransactionTable.insert, if_neg (by simp [hk])] at hi ⊢
  refine ⟨rfl, List.mem_append_right _ List.mem_cons_self, h.leave ?_ ?_ ?_⟩
  · rw [h.rows, List.map_append, List.map_singleton]
  · cases hi with
    | inserted _ _ _ _ sound => exact sound
  · intro r hr
    rcases List.mem_append.mp hr with hr | hr
    · exact h.told r hr
    · rw [List.mem_singleton.mp hr]
      exact ⟨hn, hn⟩

/-- A new record has the id and the key of no other one. -/
theorem Stands.apart {new : NewTransaction} (h : Stands t server) (now : Instant)
    (hk : (t.keys.lookup new.key).isSome = false) :
    ∀ key ∈ Relation.transactions.keys, ∀ other ∈ server.tables .transactions,
      (recordRow (TransactionTable.fresh new (t.rows.length + 1) now)).agrees other key = false := by
  intro key hkey other ho
  rw [h.rows] at ho
  obtain ⟨r, hr, rfl⟩ := List.mem_map.mp ho
  have hkeys : Relation.transactions.keys = [["tx_id"], ["idempotency_key"]] := rfl
  rw [hkeys, List.mem_cons, List.mem_singleton] at hkey
  rcases hkey with rfl | rfl
  · rw [agrees_id]
    exact beq_false_of_ne (Ne.symm (h.sound.unused_id r hr))
  · rw [agrees_key]
    exact beq_false_of_ne (Ne.symm (h.sound.unused_key hk r hr))

/-- A key that is taken is turned down by the index. -/
theorem insertedId_taken {new : NewTransaction} {ok : TransactionId → Server → Prop}
    {err : SqlError → Server → Prop} (h : Stands t server)
    (hk : (t.keys.lookup new.key).isSome = true)
    (he : ∀ e, e.isUniqueViolation = true → err e server) :
    Reports site.asking (insertedId new) ok err broke server := by
  obtain ⟨other, hm, hkey⟩ := h.sound.exists_key hk
  have hindex : ["idempotency_key"] ∈ Relation.transactions.keys := by decide
  have hother : recordRow other ∈ server.tables .transactions :=
    h.rows ▸ List.mem_map_of_mem hm
  have hrow := recordRow_filled new (server.tables .transactions).length site
  have hagree : (recordRow (TransactionTable.fresh new ((server.tables .transactions).length + 1)
      site.now)).agrees (recordRow other) ["idempotency_key"] = true := by
    rw [agrees_key]
    exact beq_iff_eq.mpr hkey.symm
  -- The statement stood alone: there is no transaction for its failure to spoil.
  have hfail : server.fail = server := by
    rw [Server.fail, h.idle]
  refine of_bind.2 (Site.reports_fetchOne_error (s := .insertTransaction new) rfl h.seen
    (Query.run_insert_duplicate hrow (recordRow_fault _) hindex hother hagree) ?_)
  rw [hfail]
  exact he _ rfl

/-- A key that is new brings back the id of a new record. -/
theorem insertedId_new {new : NewTransaction} {ok : TransactionId → Server → Prop}
    {err : SqlError → Server → Prop} (h : Stands t server) (hn : site.now.Told)
    (hk : (t.keys.lookup new.key).isSome = false)
    (ho : ∀ r server', (t.insert new site.now).1 = .inserted r →
      r ∈ (t.insert new site.now).2.rows → Stands (t.insert new site.now).2 server' →
        ok r.id server') :
    Reports site.asking (insertedId new) ok err broke server := by
  have hlength : (server.tables .transactions).length = t.rows.length := by
    rw [h.rows, List.length_map]
  have hrow := recordRow_filled new (server.tables .transactions).length site
  have hapart := h.apart site.now hk
  obtain ⟨hmemory, hstored, hstands⟩ := h.insert_fresh hn hk
  rw [← hlength] at hapart hmemory hstored hstands
  exact of_bind.2 (Site.reports_fetchOne (s := .insertTransaction new) rfl h.seen
    (Query.run_insert hrow (recordRow_fault _) (fun hne => absurd rfl hne) hapart)
    ((reports_scalar_ok rfl).2 (ho _ _ hmemory hstored hstands)))

/-- A record is stored in both, or its key is taken in both. -/
theorem insert_reports {ok : InsertOutcome → Server → Prop} (h : Stands t server)
    (hn : site.now.Told) (new : NewTransaction)
    (ho : ∀ outcome server', (t.insert new site.now).1.Alike outcome →
      Stands (t.insert new site.now).2 server' → ok outcome server') :
    Reports site.asking (insert new) ok err broke server := by
  unfold insert
  cases hk : (t.keys.lookup new.key).isSome with
  | true =>
    have hmemory : t.insert new site.now = (.duplicateKey, t) := if_pos hk
    rw [hmemory] at ho
    refine of_bind.2 (of_attempt.2 (insertedId_taken h hk fun e he => ?_))
    dsimp only
    rw [if_pos he]
    exact ho _ _ .duplicateKey h
  | false =>
    refine of_bind.2 (of_attempt.2 (insertedId_new h hn hk fun r server' hmemory hr hstands => ?_))
    refine of_bind.2 (get_reports hstands r.id ?_)
    rw [hstands.sound.row?_of_mem hr]
    intro o halike
    cases halike with
    | some halike =>
      refine ho _ _ ?_ hstands
      rw [hmemory]
      exact .inserted halike

/-- The stuck records that come from the database are a selection. -/
theorem findStuck_reports {ok : List TransactionRecord → Server → Prop} (h : Stands t server)
    {cutoff : Instant} {limit : Nat} (hl : limit ≤ maxInt64)
    (ho : ∀ batch rs', t.Selects cutoff limit batch → List.Forall₂ TransactionRecord.Alike batch rs' →
      ok rs' server) :
    Reports site.asking (findStuck cutoff limit) ok err broke server := by
  have hcell : ∀ r, (recordRow r).cell "updated_at" = .instant r.updatedAt := by
    intro r
    simp [Row.cell, recordRow]
  have hlimit : (Term.param 4).eval (site.reading (.findStuck cutoff (signed64 limit))) [] =
      .int limit := by
    rw [← signed64_of_le hl]
    rfl
  obtain ⟨rows, batch, hperm, hbatch, hrun⟩ := Query.run_front site.scan h.rows
    (stuck_meets site cutoff _) hcell hlimit fun r => recordRow_shown _
  have hselects : t.Selects cutoff limit batch :=
    hbatch ▸ TransactionTable.selects_of_perm hperm limit
  obtain ⟨rs', hread, halike⟩ := ofRows_recordRows fun r hr =>
    h.told r (TransactionTable.mem_waiting.mp (hselects.mem_waiting hr)).1
  unfold findStuck fetchAll
  refine of_bind.2 (of_mapError.2 (of_map.2 ((Site.reports_send rfl h.seen hrun).2 ?_)))
  rw [Site.leave_seen h.seen]
  dsimp only
  rw [hread]
  exact ho batch rs' hselects halike

/-- The sum of no rows is read as no number. -/
theorem read_no_sum {type : ColumnType} :
    Row.first [(⟨"sum", type⟩, .null)] Reader.decimal.optional = .ok none := by
  rw [Row.first, Reader.read, if_pos rfl]
  rfl

theorem read_sum {n : Numeric} {d : Decimal} (h : n.toDecimal = .ok d) :
    Row.first [(⟨"sum", .numeric⟩, .numeric n)] Reader.decimal.optional = .ok (some d) := by
  have hcell : Reader.decimal.optional.ofCell (.numeric n) = .ok (some d) :=
    congrArg (Except.map some) h
  have haccepts : Reader.decimal.optional.accepts .numeric = true := rfl
  rw [Row.first, Reader.read, if_neg Cell.noConfusion, if_pos haccepts, hcell]
  rfl

/-- The sum is that of the spending in memory, if that is added up exactly. -/
theorem sumSpending_reports {ok : Decimal → Server → Prop} (h : Stands t server) {user : UserId}
    {since : Instant} {total : Decimal}
    (hv : total.value = ((t.spending user since).map Decimal.value).sum)
    (ho : ∀ d : Decimal, total.value = d.value → ok d server) :
    Reports site.asking (sumSpending user since) ok err broke server := by
  have hp : ∀ row r, row = recordRow r → meets (site.reading (.sumSpending user since))
      [.equal "user_id" (.param 1), .equal "status" (.param 2),
        .oneOf "operation_type" [.param 3, .param 4], .atLeast "created_at" (.param 5)] row =
      (r.user == user && r.status == .completed && r.type.isSpending &&
        decide (since ≤ r.createdAt)) := by
    rintro _ r rfl
    exact spending_meets site user since r
  have hnumber : ∀ row r, row = recordRow r →
      row.cell "target_amount" = .numeric (.ofDecimal r.targetAmount) := by
    rintro _ r rfl
    simp [Row.cell, recordRow]
  obtain ⟨cell, hrun, hcell⟩ := Query.run_sum site.scan h.holds hp hnumber
  unfold sumSpending
  refine of_bind.2 (of_mapError.2 (of_bind.2 (Site.reports_fetchOne rfl h.seen hrun ?_)))
  rw [Site.leave_seen h.seen]
  have hspending : (t.spending user since).map Decimal.value =
      (t.rows.filter fun r => r.user == user && r.status == .completed && r.type.isSpending &&
        decide (since ≤ r.createdAt)).map fun r => (Numeric.ofDecimal r.targetAmount).value := by
    rw [TransactionTable.spending, List.map_map]
    exact List.map_congr_left fun r _ => (Numeric.value_ofDecimal r.targetAmount).symm
  rw [hspending] at hv
  rcases hcell with ⟨rfl, hnil⟩ | ⟨n, rfl, hn⟩
  · rw [hnil] at hv
    exact (reports_scalar_ok read_no_sum).2 (ho .zero (hv.trans Decimal.value_zero.symm))
  · rw [← hv] at hn
    obtain ⟨d, hd, hdv⟩ := Numeric.toDecimal_exact ⟨total, hn.symm⟩
    exact (reports_scalar_ok (read_sum hd)).2 (ho d (hn.symm.trans hdv.symm))

end

def AnsweredAlike :
    (call : StoreCall) → Flow.Outcome call.Answer → Flow.Outcome call.Answer → Prop
  | .insert _ => Flow.Outcome.Alike InsertOutcome.Alike (· = ·)
  | .get _ | .getByKey _ => Flow.Outcome.Alike (Option.Rel TransactionRecord.Alike) (· = ·)
  | .markProcessing _ | .advanceStep .. | .finalize .. => Flow.Outcome.Alike (· = ·) (· = ·)
  | .findStuck .. => Flow.Outcome.Alike (List.Forall₂ TransactionRecord.Alike) (· = ·)
  | .history .. =>
    Flow.Outcome.Alike (fun p p' => List.Forall₂ TransactionRecord.Alike p.items p'.items ∧
      p'.page = p.page ∧ p'.size = p.size ∧ p'.total = p.total) (· = ·)
  | .sumSpending .. => Flow.Outcome.Alike (fun d d' => d.value = d'.value) (· = ·)

/-- What a call has to keep to: stuck records have to differ in when they were last touched, sums have
to be exact on the way, and pages of histories are not told of. -/
def Suits (c : Site × StoreCall) (t : TransactionTable) : Prop :=
  c.1.now.Told ∧
    match c.2 with
    | .findStuck cutoff limit =>
      limit ≤ maxInt64 ∧ ((t.waiting cutoff).map (·.updatedAt)).Nodup
    | .sumSpending user since =>
      ∀ front, front <+: t.spending user since → Decimal.Fits (front.map Decimal.value).sum
    | .history .. => False
    | _ => True

def Decodes (t : TransactionTable) (server : Server) : Prop :=
  List.Forall₂ (fun row r => ∃ r', ofRow row = pure r' ∧ r.Alike r') (server.tables .transactions)
    t.rows

theorem Stands.decodes {t : TransactionTable} {server : Server} (h : Stands t server) :
    Decodes t server := by
  rw [Decodes, h.rows, List.forall₂_map_left_iff, List.forall₂_same]
  intro r hr
  exact ofRow_recordRow (h.told r hr).1 (h.told r hr).2

def Concludes {α : Type} (alike : α → α → Prop)
    (memory : Flow.Outcome (Except ServiceError α) × TransactionTable)
    (outcome : Flow.Outcome (Except ServiceError α)) (server : Server) : Prop :=
  Flow.Outcome.Alike alike (· = ·) memory.1 outcome ∧ Stands memory.2 server

/-- A call gets the same answer from both stores, and leaves them with the same records. -/
theorem answer_agrees {site : Site} {call : StoreCall} {t : TransactionTable} {server : Server}
    (h : Stands t server) (hs : Suits (site, call) t) :
    AnsweredAlike call (t.answer site.now call).1 (site.serve (answer call) server).1 ∧
      Stands (t.answer site.now call).2 (site.serve (answer call) server).2 := by
  obtain ⟨hn, hs⟩ := hs
  cases call with
  | insert new =>
    exact site.serve_of_reports (Concludes _ _)
      (insert_reports h hn new fun _ _ halike hstands => ⟨.value halike, hstands⟩)
  | get id =>
    exact site.serve_of_reports (Concludes _ _)
      (get_reports h id fun _ halike => ⟨.value halike, h⟩)
  | getByKey key =>
    exact site.serve_of_reports (Concludes _ _)
      (getByKey_reports h key fun _ halike => ⟨.value halike, h⟩)
  | markProcessing id =>
    exact site.serve_of_reports (Concludes _ _)
      (changed_reports h hn id .take fun _ hstands => ⟨.value rfl, hstands⟩)
  | advanceStep id step =>
    exact site.serve_of_reports (Concludes _ _)
      (changed_reports h hn id (.advance step) fun _ hstands => ⟨.value rfl, hstands⟩)
  | finalize id fin =>
    exact site.serve_of_reports (Concludes _ _)
      (changed_reports h hn id (.close fin) fun _ hstands => ⟨.value rfl, hstands⟩)
  | findStuck cutoff limit =>
    exact site.serve_of_reports (Concludes _ _)
      (findStuck_reports h hs.1 fun batch _ hselects halike =>
        ⟨.value (hselects.eq_findStuck hs.2 ▸ halike), h⟩)
  | history => exact hs.elim
  | sumSpending user since =>
    obtain ⟨total, hsum, hv⟩ := Decimal.sum_exact hs
    simp only [TransactionTable.answer, hsum]
    exact site.serve_of_reports (Concludes _ (.value (.ok total), t))
      (sumSpending_reports h hv fun _ hd => ⟨.value hd, h⟩)

/-- The calls, each at a site of its own, get the same answers from the table and from the server, and
every row of the server is read as the record in memory. -/
def StoresAgree (calls : List (Site × StoreCall)) (t : TransactionTable) (server : Server) : Prop :=
  Agree (fun c => AnsweredAlike c.2) Decodes (fun c t => t.answer c.1.now c.2)
    (fun c server => c.1.serve (answer c.2) server) calls t server

def AllSuit (calls : List (Site × StoreCall)) (t : TransactionTable) : Prop :=
  Along Suits (fun c t => t.answer c.1.now c.2) calls t

def recorded (calls : List (Site × StoreCall)) : List TransactionRecord :=
  (TransactionTable.calls {} (calls.map fun c => (c.1.now, c.2))).rows

/-- A record counts as many attempts at most as calls took it up. -/
theorem recorded_attempts {calls : List (Site × StoreCall)} {r : TransactionRecord}
    (hr : r ∈ recorded calls) :
    0 ≤ r.attempts ∧ r.attempts ≤ calls.countP fun c => c.2 = .markProcessing r.id := by
  have h := TransactionTable.calls_attempts hr
  rwa [List.countP_map] at h

/-- From no records on, the two stores agree. On the way no record counts more attempts than calls took
it up. -/
theorem stores_agree {calls : List (Site × StoreCall)} {server : Server}
    (hidle : server.work = .none) (hempty : server.tables .transactions = [])
    (hs : AllSuit calls {}) : StoresAgree calls {} server ∧
      ∀ front, front <+: calls → ∀ r ∈ recorded front,
        0 ≤ r.attempts ∧ r.attempts ≤ front.countP fun c => c.2 = .markProcessing r.id := by
  refine ⟨?_, fun front _ r hr => recorded_attempts hr⟩
  have hstart : Stands {} server :=
    ⟨hidle, hempty, TransactionTable.sound_empty, fun _ hr => by cases hr⟩
  refine (Agree.of_step ?_ hstart hs).mono fun t server h => h.decodes
  rintro ⟨site, call⟩ t server h hs
  exact answer_agrees h hs

def withdrawal : NewTransaction :=
  ⟨7, some 1, none, .one, .one, .one, .usd, .withdraw, none, "dinner"⟩

def withdrawalCalls : List (Site × StoreCall) :=
  [(.plain 0, .insert withdrawal), (.plain 1, .insert withdrawal), (.plain 2, .markProcessing 1),
    (.plain 3, .findStuck 3 10), (.plain 4, .finalize 1 .completed), (.plain 5, .sumSpending 7 0)]

theorem stores_agree_withdrawal : StoresAgree withdrawalCalls {} ⟨fun _ => [], .none⟩ := by
  have hfits : ∀ front, front <+: [withdrawal.targetAmount] →
      Decimal.Fits (front.map Decimal.value).sum := by
    intro front hfront
    rcases List.prefix_cons_iff.mp hfront with rfl | ⟨rest, rfl, hrest⟩
    · exact ⟨.zero, Decimal.value_zero⟩
    · rw [List.prefix_nil.mp hrest]
      exact ⟨withdrawal.targetAmount, (List.sum_singleton ..).symm⟩
  have hsuit : AllSuit withdrawalCalls {} :=
    ⟨⟨by decide, trivial⟩, ⟨by decide, trivial⟩, ⟨by decide, trivial⟩,
      ⟨by decide, by decide +kernel, by decide +kernel⟩, ⟨by decide, trivial⟩, ⟨by decide, hfits⟩,
      trivial⟩
  obtain ⟨hagree, -⟩ : StoresAgree withdrawalCalls {} ⟨fun _ => [], .none⟩ ∧ _ :=
    stores_agree rfl rfl hsuit
  exact hagree

end Transactions
end Sql
end Settlement
