import Mathlib.Algebra.Order.BigOperators.Group.List
import Mathlib.Tactic.Linarith
import Settlement.Proofs.Schedules

/-!
The daily ceiling. A request is checked against what was completed when it asked, and is stored and
completed later, so what completes meanwhile comes on top of the limit. Nothing else does.
-/

namespace Settlement

namespace Decimal

def Paid (d : Decimal) : Prop := d.Cents ∧ zero ≤ d

theorem paid_nonneg {ds : List Decimal} (h : ∀ d ∈ ds, d.Paid) : 0 ≤ (ds.map value).sum := by
  refine List.sum_nonneg fun x hx => ?_
  obtain ⟨d, hd, rfl⟩ := List.mem_map.mp hx
  rw [← value_zero]
  exact le_iff_value.mp (h d hd).2

theorem paid_cents {ds : List Decimal} (h : ∀ d ∈ ds, d.Paid) :
    ∃ n : Int, (ds.map value).sum = n / 100 := by
  induction ds with
  | nil => exact ⟨0, by simp⟩
  | cons d ds ih =>
    obtain ⟨n, hn⟩ := ih fun e he => h e (List.mem_cons_of_mem d he)
    obtain ⟨k, hk⟩ := (h d List.mem_cons_self).1
    refine ⟨k + n, ?_⟩
    rw [List.map_cons, List.sum_cons, hn, hk]
    push_cast
    ring

/-- Amounts that fit together have their sum as a number. -/
theorem exists_paid {ds : List Decimal} (h : ∀ d ∈ ds, d.Paid)
    (hb : (ds.map value).sum * 100 < capacity) : ∃ d : Decimal, d.value = (ds.map value).sum := by
  obtain ⟨n, hn⟩ := paid_cents h
  have h0 := paid_nonneg h
  rw [hn] at h0 hb ⊢
  refine exists_cents ?_ ?_
  · have : (0 : ℚ) ≤ n := by linarith
    exact_mod_cast this
  · have : (n : ℚ) < capacity := by linarith
    exact_mod_cast this

/-- Amounts that fit together are added exactly. -/
theorem sum_paid {ds : List Decimal} {sum : Decimal} (h : ∀ d ∈ ds, d.Paid)
    (hb : (ds.map value).sum * 100 < capacity) (hs : Decimal.sum ds = some sum) :
    sum.value = (ds.map value).sum := by
  induction ds using List.reverseRecOn generalizing sum with
  | nil =>
    cases hs
    simp
  | append_singleton ds d ih =>
    obtain ⟨exact, hexact⟩ := exists_paid h hb
    rw [List.map_append, List.sum_append, List.map_singleton, List.sum_singleton] at hb hexact ⊢
    have hds : ∀ e ∈ ds, e.Paid := fun e he => h e (List.mem_append_left _ he)
    have hd : 0 ≤ d.value := by
      rw [← value_zero]
      exact le_iff_value.mp (h d (by simp)).2
    rw [Decimal.sum, List.foldlM_append] at hs
    obtain ⟨front, hfront, hadd⟩ := Option.bind_eq_some_iff.mp hs
    have hv : front.value = (ds.map value).sum := ih hds (by linarith) hfront
    rw [← hv] at hexact ⊢
    obtain ⟨c, hc, hcv⟩ := add_exact hexact
    have hadd : front.add d = some sum := by simpa using hadd
    rw [hc] at hadd
    cases hadd
    exact hcv

end Decimal

namespace TransactionTable

def spent (t : TransactionTable) (user : UserId) : List TransactionRecord :=
  t.rows.filter fun r => r.user == user && r.status == .completed && r.type.isSpending

/-- Those created between two instants, both included. -/
def spentWithin (t : TransactionTable) (user : UserId) (first last : Instant) :
    List TransactionRecord :=
  (t.spent user).filter fun r => decide (first ≤ r.createdAt) && decide (r.createdAt ≤ last)

def pending (t : TransactionTable) (id : TransactionId) : Bool :=
  (t.row? id).all (·.status != .completed)

theorem mem_spent {t : TransactionTable} {user : UserId} {r : TransactionRecord} :
    r ∈ t.spent user ↔
      r ∈ t.rows ∧ r.user = user ∧ r.status = .completed ∧ r.type.isSpending = true := by
  simp [spent, and_assoc]

theorem mem_spentWithin {t : TransactionTable} {user : UserId} {first last : Instant}
    {r : TransactionRecord} :
    r ∈ t.spentWithin user first last ↔
      r ∈ t.spent user ∧ first ≤ r.createdAt ∧ r.createdAt ≤ last := by
  simp [spentWithin]

theorem spending_eq (t : TransactionTable) (user : UserId) (since : Instant) :
    t.spending user since =
      ((t.spent user).filter fun r => decide (since ≤ r.createdAt)).map (·.targetAmount) := by
  rw [spending, spent, List.filter_filter]
  congr 1
  refine List.filter_congr fun r _ => ?_
  rw [Bool.and_comm]

end TransactionTable

/-- What the records credit together. -/
def credited (records : List TransactionRecord) : ℚ := (records.map (·.targetAmount.value)).sum

namespace Reply

def dailyOf? (user : UserId) : Reply → Option Decimal
  | elsewhere (.limits (.find asked)) (.ok (some limit)) =>
    if asked = user then some limit.daily else none
  | elsewhere (.limits (.insertIfAbsent asked)) (.ok limit) =>
    if asked.user = user then some limit.daily else none
  | _ => none

def quoted? : Reply → Option (Currency × Currency × Decimal)
  | elsewhere (.rates (.lookup source target)) (some rate) => some (source, target, rate)
  | _ => none

def instant? : Reply → Option Instant
  | served now | lost now _ | elsewhere .now now => some now
  | _ => none

end Reply

/-- The user's daily limit stays the same, a rate is found only if it was kept, and the clock does not
go back. -/
structure Machine.Orderly (m : Machine) (user : UserId) (daily : Decimal) : Prop where
  limits : ∀ d ∈ m.history.filterMap (·.reply.dailyOf? user), d = daily
  rates : ∀ q ∈ m.history.filterMap (·.reply.quoted?),
    ∃ e ∈ m.history, e.call = .rates (.keep q.1 q.2.1 q.2.2)
  clock : (m.history.filterMap (·.reply.instant?)).Pairwise fun later earlier => earlier ≤ later

instance (m : Machine) (user : UserId) (daily : Decimal) : Decidable (m.Orderly user daily) :=
  decidable_of_iff
    ((∀ d ∈ m.history.filterMap fun e : Event => e.reply.dailyOf? user, d = daily) ∧
      (∀ q ∈ m.history.filterMap fun e : Event => e.reply.quoted?,
        ∃ e ∈ m.history, e.call = .rates (.keep q.1 q.2.1 q.2.2)) ∧
      (m.history.filterMap fun e : Event => e.reply.instant?).Pairwise
        fun later earlier => earlier ≤ later)
    ⟨fun h => ⟨h.1, h.2.1, h.2.2⟩, fun h => ⟨h.limits, h.rates, h.clock⟩⟩

/-- The limit was checked for the record at the machine `n`: what its user had spent was asked there
by the task that stored the record afterwards. -/
structure CheckedAt (s : Service) (moves : List Move) (m : Machine) (r : TransactionRecord)
    (n : Machine) : Prop where
  way : ∃ before, before <+: moves ∧ Machine.play s {} before = some n
  asked : ∃ p since reply later,
    m.history = later ++ ⟨p, .store (.sumSpending r.user since), reply, .nothing⟩ :: n.history ∧
      ∃ e ∈ later, e.task = p ∧ ∃ r₀, e.effect = .inserted r₀ ∧ r₀.Same r

namespace Stores

variable {σ σ' : Stores} {call : Call} {reply : Reply} {eff : Effect}

theorem carry_elsewhere {now : Instant} (hk : call.kept = false) : σ.carry now call = none := by
  cases call with
  | ledger | store => cases hk
  | limits | categories | rates | now | pause => rfl

theorem answer?_elsewhere {f : Failure} (hk : call.kept = false) : f.answer? call = none := by
  cases call with
  | ledger | store => cases hk
  | limits | categories | rates | now | pause => cases f <;> rfl

/-- What is kept elsewhere is answered from there. -/
theorem meet_elsewhere {a : call.Answer} (hk : call.kept = false)
    (h : σ.meet call reply = some (.value a, eff, σ')) : reply = .elsewhere call a := by
  cases reply with
  | elsewhere other b =>
    by_cases ho : other = call ∧ call.kept = false
    · obtain ⟨rfl, _⟩ := ho
      rw [meet, dif_pos ⟨rfl, hk⟩] at h
      cases h
      rfl
    · rw [meet, dif_neg ho] at h
      contradiction
  | served now =>
    obtain ⟨real, hc, -⟩ := Option.map_eq_some_iff.mp h
    rw [carry_elsewhere hk] at hc
    contradiction
  | refused f =>
    obtain ⟨b, hb, -⟩ := Option.map_eq_some_iff.mp h
    rw [answer?_elsewhere hk] at hb
    contradiction
  | lost now f =>
    obtain ⟨b, hb, -⟩ := Option.bind_eq_some_iff.mp h
    rw [answer?_elsewhere hk] at hb
    contradiction

theorem meet_sumSpending {user : UserId} {since : Instant} {spent : Decimal}
    (h : σ.meet (.store (.sumSpending user since)) reply = some (.value (.ok spent), eff, σ')) :
    Decimal.sum (σ.table.spending user since) = some spent := by
  rcases meet_store h with ⟨_, _, ⟨e, he⟩, _⟩ | ⟨now, real, hr, _, _, ha | ⟨⟨e, he⟩, _⟩⟩
  · cases he
  · have hr := congrArg Prod.fst hr
    rw [ha] at hr
    simp only [TransactionTable.answer] at hr
    split at hr
    next sum hs =>
      cases hr
      exact hs
    next => cases hr
  · cases he

/-- A record is created at the time of the reply. -/
theorem meet_created {a : call.Answer} {r : TransactionRecord}
    (h : σ.meet call reply = some (.value a, .inserted r, σ')) : reply.instant? = some r.createdAt := by
  obtain ⟨new, rfl, -⟩ := meet_inserted h
  rcases meet_cases h with ⟨he, _⟩ | ⟨now, real, hc, he, hreply⟩
  · cases he
  have hcreated : r.createdAt = now := by
    simp only [carry, TransactionTable.answer, TransactionTable.insert] at hc
    split at hc
    · cases hc
      cases he
    · cases hc
      cases he
      rfl
  rcases hreply with ⟨rfl, _⟩ | ⟨f, b, rfl, _⟩ <;> rw [hcreated] <;> rfl

end Stores

/-- Terms that trust what the task has heard, and let it store what was checked on that. -/
def Terms.heard (s : Service) (moves : List Move) (m : Machine) (p : Nat) : Terms where
  may call := ∀ new, call = .store (.insert new) →
    Terms.Checks ⟨fun _ => True, Heard s moves m p⟩ new
  trust := Heard s moves m p

theorem Terms.heard_open (s : Service) (moves : List Move) (m : Machine) (p : Nat) :
    (heard s moves m p).Open where
  plain := by
    rintro call hp new rfl
    cases hp
  keep _ _ _ _ _ he := by cases he

theorem Terms.heard_insert {s : Service} {moves : List Move} {m : Machine} {p : Nat}
    {new : NewTransaction} (h : (heard s moves m p).Checks new) :
    (heard s moves m p).may (.store (.insert new)) := by
  rintro new' ⟨⟩
  exact ⟨h.level, h.cents, h.owed, h.afforded⟩

def Terms.keeping : Terms where
  may call := ∀ source target rate, call = .rates (.keep source target rate) → Decimal.zero < rate
  trust _ _ := True

theorem Terms.keeping_open : keeping.Open where
  plain := by
    rintro call hp source target rate rfl
    cases hp
  keep := by
    rintro source target rate hpos _ _ _ ⟨⟩
    exact hpos

section

variable {s : Service} {moves before front : List Move} {m n k : Machine} {p : Nat} {user : UserId}
  {daily : Decimal}

theorem checks_of_asks {new : NewTransaction} (hm : Machine.play s {} moves = some m)
    (ha : m.Asks p (.store (.insert new))) :
    Terms.Checks ⟨fun _ => True, Heard s moves m p⟩ new :=
  may_of_asks (Terms.heard_open s moves m p) (fun _ _ => Terms.heard_insert) hm (fun _ _ h => h) ha
    new rfl

theorem kept_positive (hm : Machine.play s {} moves = some m) :
    ∀ e ∈ m.history, ∀ source target rate, e.call = .rates (.keep source target rate) →
      Decimal.zero < rate := by
  intro e he
  obtain ⟨front, n, -, hn, ha⟩ := asked_of_history hm e he
  refine may_of_asks Terms.keeping_open (fun _ _ _ => ?_) hn (fun _ _ _ => trivial) ha
  intro _ _ _ he
  cases he

theorem Heard.elsewhere {call : Call} {a : call.Answer} (h : Heard s moves m p call a)
    (hk : call.kept = false) : ∃ e ∈ m.history, e.reply = .elsewhere call a := by
  obtain ⟨front, n, reply, eff, σ, -, -, hmet, hs⟩ := h
  exact ⟨_, hs.subset List.mem_cons_self, Stores.meet_elsewhere hk hmet⟩

/-- What is earlier in a schedule leads on to what is later. -/
theorem play_between (hf : front <+: before) (hk : Machine.play s {} front = some k)
    (hn : Machine.play s {} before = some n) : ∃ rest, k.play s rest = some n := by
  obtain ⟨rest, rfl⟩ := hf
  rw [Machine.play_append, hk] at hn
  exact ⟨rest, hn⟩

/-- The amounts of all records are whole cents and no debts. -/
theorem paid_of_play (hm : Machine.play s {} moves = some m) (ho : m.Orderly user daily) :
    ∀ r ∈ m.stores.table.rows, r.targetAmount.Paid := by
  intro r hr
  obtain ⟨before, n, p, reply, r₀, hb, hn, hst, hr₀, hhist⟩ := stored_of_play hm r hr
  have hc := checks_of_asks hn hst.asks
  rw [hr₀.same.payload] at hc
  refine ⟨hc.cents, hc.owed fun source target rate hheard => ?_⟩
  obtain ⟨e, he, hreply⟩ := hheard.elsewhere rfl
  have hem : e ∈ m.history := hhist.subset (List.mem_cons_of_mem _ he)
  obtain ⟨f, hf, hcall⟩ := ho.rates (source, target, rate)
    (List.mem_filterMap.mpr ⟨e, hem, by rw [hreply]; rfl⟩)
  exact kept_positive hm f hf source target rate hcall

/-- The limit that a task relies on is the user's. -/
theorem Machine.Orderly.daily_eq (ho : m.Orderly user daily) {limit : Limit}
    (hs : n.history <:+ m.history)
    (hg : Terms.Grants ⟨fun _ => True, Heard s before n p⟩ user limit) : limit.daily = daily := by
  have htold : ∀ e ∈ n.history, e.reply.dailyOf? user = some limit.daily → limit.daily = daily :=
    fun e he hd => ho.limits _ (List.mem_filterMap.mpr ⟨e, hs.subset he, hd⟩)
  rcases hg with hfind | ⟨asked, hasked, hinsert⟩
  · obtain ⟨e, he, hreply⟩ := Heard.elsewhere hfind rfl
    exact htold e he (by rw [hreply, Reply.dailyOf?, if_pos rfl])
  · obtain ⟨e, he, hreply⟩ := Heard.elsewhere hinsert rfl
    exact htold e he (by rw [hreply, Reply.dailyOf?, if_pos hasked])

/-- What the clock said before a record was stored is not later than the record. -/
theorem Machine.Orderly.now_le (ho : m.Orderly user daily) {now : Instant} {reply : Reply}
    {r₀ : TransactionRecord} {call : Call} {eff : Effect}
    (hs : (⟨p, call, reply, eff⟩ :: n.history) <:+ m.history)
    (hr : reply.instant? = some r₀.createdAt) (hnow : Heard s before n p .now now) :
    now ≤ r₀.createdAt := by
  obtain ⟨later, hl⟩ := hs
  obtain ⟨e, he, hreply⟩ := hnow.elsewhere rfl
  have hclock := ho.clock
  rw [← hl, List.filterMap_append] at hclock
  have hclock := (List.pairwise_append.mp hclock).2.1
  simp only [List.filterMap_cons, hr] at hclock
  refine (List.pairwise_cons.mp hclock).1 now (List.mem_filterMap.mpr ⟨e, he, ?_⟩)
  rw [hreply]
  rfl

theorem rows_nodup {t : TransactionTable} (hs : t.Sound) : t.rows.Nodup :=
  List.Nodup.of_map _ hs.ids

/-- What has completed stays as it is. -/
theorem TransactionTable.Extends.spent {t t' : TransactionTable}
    (h : t.Extends TransactionRecord.Before t') : t.spent user ⊆ t'.spent user := by
  intro r hr
  obtain ⟨hm, hu, hc, ht⟩ := TransactionTable.mem_spent.mp hr
  obtain ⟨r', hr', hb⟩ := h.mem hm
  rw [hb.final (by rw [hc]; rfl)] at hr'
  exact TransactionTable.mem_spent.mpr ⟨hr', hu, hc, ht⟩

theorem credited_le {rs rs' : List TransactionRecord} (hn : rs.Nodup) (hs : rs ⊆ rs')
    (hp : ∀ r ∈ rs', r.targetAmount.Paid) : credited rs ≤ credited rs' := by
  obtain ⟨l, hl, hsub⟩ := List.subperm_of_subset hn hs
  unfold credited
  rw [← (hl.map _).sum_eq]
  refine List.Sublist.sum_le_sum (hsub.map _) fun x hx => ?_
  obtain ⟨r, hr, rfl⟩ := List.mem_map.mp hx
  rw [← Decimal.value_zero]
  exact Decimal.le_iff_value.mp (hp r hr).2

/-- Exact arithmetic of a check: what was spent and the record come to what they are worth. -/
theorem check_exact {rs : List TransactionRecord} {r : TransactionRecord} {spent total limit : Decimal}
    (hp : ∀ x ∈ rs ++ [r], x.targetAmount.Paid)
    (hfits : credited (rs ++ [r]) * 100 < Decimal.capacity)
    (hs : Decimal.sum (rs.map (·.targetAmount)) = some spent)
    (ht : spent.add r.targetAmount = some total) (hle : total ≤ limit) :
    credited rs + r.targetAmount.value ≤ limit.value := by
  have hpaid : ∀ d ∈ (rs ++ [r]).map (·.targetAmount), d.Paid := by
    intro d hd
    obtain ⟨x, hx, rfl⟩ := List.mem_map.mp hd
    exact hp x hx
  have hsum : Decimal.sum ((rs ++ [r]).map (·.targetAmount)) = some total := by
    rw [List.map_append, List.map_singleton, Decimal.sum, List.foldlM_append]
    refine Option.bind_eq_some_iff.mpr ⟨spent, hs, ?_⟩
    simpa using ht
  have hvalue := Decimal.sum_paid hpaid (by simpa [credited, Function.comp_def] using hfits) hsum
  rw [Decimal.le_iff_value, hvalue] at hle
  simpa [credited, Function.comp_def] using hle

/-- A check that is passed leaves room for the record: with what had completed until then, the record
stays within the limit. -/
theorem checked_within (hm : Machine.play s {} moves = some m) (ho : m.Orderly user daily)
    (hfits : credited (m.stores.table.spent user) * 100 < Decimal.capacity)
    {r : TransactionRecord} (hr : r ∈ m.stores.table.spent user) :
    ∃ n since, CheckedAt s moves m r n ∧ since + Service.dailyWindow ≤ r.createdAt ∧
      n.stores.table.Extends TransactionRecord.Before m.stores.table ∧
      credited ((n.stores.table.spent user).filter fun x => decide (since ≤ x.createdAt)) +
        r.targetAmount.value ≤ daily.value := by
  obtain ⟨hrow, huser, -, htype⟩ := TransactionTable.mem_spent.mp hr
  obtain ⟨before, n, p, reply, r₀, hbefore, hn, hstored, hr₀, hhistory⟩ :=
    stored_of_play hm r hrow
  have hchecks := checks_of_asks hn hstored.asks
  rw [hr₀.same.payload] at hchecks
  obtain ⟨limit, now, spent, total, hgrants, -, hnow, hspent, htotal, hle⟩ := hchecks.afforded htype
  rw [huser] at hgrants
  rw [ho.daily_eq ((List.suffix_cons _ _).trans hhistory) hgrants] at hle
  obtain ⟨a, σ, hmet⟩ := hstored.met
  have hcreated : now ≤ r.createdAt :=
    hr₀.createdAt ▸ ho.now_le hhistory (Stores.meet_created hmet) hnow
  obtain ⟨front, k, reply', eff, σ', hfront, hk, hasked, hknown⟩ := hspent
  obtain ⟨rfl, -⟩ := Stores.meet_reads rfl hasked
  have hsum := Stores.meet_sumSpending hasked
  rw [TransactionTable.spending_eq, huser] at hsum
  -- The record comes after everything that was counted.
  obtain ⟨rest, hrest⟩ := play_between hfront hk hn
  obtain ⟨rest', hrest'⟩ := play_between hbefore hn hm
  have hsound := (Reachable.empty.play hk).sound
  obtain ⟨hsoundn, hkn, -⟩ := Machine.play_onward hrest hsound
  have hnm := (Machine.play_onward hrest' hsoundn).2.1
  have hkm := hkn.onward hnm
  have hnew : r ∉ k.stores.table.rows := by
    intro hrk
    obtain ⟨r', hr', hb⟩ := hkn.mem hrk
    have hfound := hsoundn.row?_of_mem hr'
    rw [← hb.same.id, ← hr₀.same.id, hstored.free] at hfound
    contradiction
  set counted := (k.stores.table.spent user).filter fun x => decide (now - Service.dailyWindow ≤ x.createdAt)
    with hcounted
  have hsub : counted ++ [r] ⊆ m.stores.table.spent user := by
    intro x hx
    rcases List.mem_append.mp hx with hx | hx
    · exact hkm.spent (List.mem_of_mem_filter hx)
    · exact List.mem_singleton.mp hx ▸ hr
  have hpaid : ∀ x ∈ m.stores.table.spent user, x.targetAmount.Paid :=
    fun x hx => paid_of_play hm ho x (TransactionTable.mem_spent.mp hx).1
  have hnodup : (counted ++ [r]).Nodup := by
    rw [List.nodup_append]
    refine ⟨((rows_nodup hsound).filter _).filter _, by simp, ?_⟩
    rintro x hx y hy rfl
    rw [List.mem_singleton.mp hy] at hx
    exact hnew (TransactionTable.mem_spent.mp (List.mem_of_mem_filter hx)).1
  have hbound : credited (counted ++ [r]) * 100 < Decimal.capacity := by
    have := credited_le hnodup hsub hpaid
    linarith
  refine ⟨k, now - Service.dailyWindow, ⟨⟨front, hfront.trans hbefore, hk⟩, ?_⟩, ?_, hkm,
    check_exact (fun x hx => hpaid x (hsub hx)) hbound hsum htotal hle⟩
  · obtain ⟨earlier, he⟩ := hknown
    obtain ⟨later, hl⟩ := hhistory
    refine ⟨p, now - Service.dailyWindow, reply',
      later ++ ⟨p, .store (.insert r₀.payload), reply, .inserted r₀⟩ :: earlier, ?_,
      ⟨p, .store (.insert r₀.payload), reply, .inserted r₀⟩, by simp, rfl, r₀, rfl, hr₀.same⟩
    rw [← hl, ← he]
    simp
  · rw [Int.sub_add_cancel]
    exact hcreated

/-- What a user has completed within any 24 hours is within the daily limit, but for what had not
completed yet when a limit was checked: whichever record of them is taken, the limit and the others
that completed after its check cover them all. -/
theorem daily_ceiling {s : Service} {moves : List Move} {m : Machine} {user : UserId}
    {daily : Decimal} (hm : Machine.play s {} moves = some m) (ho : m.Orderly user daily)
    (hfits : credited (m.stores.table.spent user) * 100 < Decimal.capacity) (first : Instant) :
    ∀ r ∈ m.stores.table.spentWithin user first (first + Service.dailyWindow),
      ∃ n, CheckedAt s moves m r n ∧
        credited (m.stores.table.spentWithin user first (first + Service.dailyWindow)) ≤
          daily.value +
            credited ((m.stores.table.spentWithin user first (first + Service.dailyWindow)).filter
              fun x => x.id != r.id && n.stores.table.pending x.id) := by
  intro r hr
  obtain ⟨hspent, -, hlast⟩ := TransactionTable.mem_spentWithin.mp hr
  obtain ⟨n, since, hchecked, hsince, hext, hle⟩ := checked_within hm ho hfits hspent
  refine ⟨n, hchecked, ?_⟩
  have hsound := (Reachable.empty.play hm).sound
  set counted := (n.stores.table.spent user).filter fun x => decide (since ≤ x.createdAt)
  set all := m.stores.table.spentWithin user first (first + Service.dailyWindow)
  set late := all.filter fun x => x.id != r.id && n.stores.table.pending x.id
  have hall : ∀ x ∈ all, x ∈ m.stores.table.spent user := fun x hx => List.mem_of_mem_filter hx
  have hcover : all ⊆ counted ++ [r] ++ late := by
    intro x hx
    obtain ⟨hxs, hxfirst, -⟩ := TransactionTable.mem_spentWithin.mp hx
    obtain ⟨hxm, hxu, hxc, hxt⟩ := TransactionTable.mem_spent.mp hxs
    by_cases hid : x.id = r.id
    · have hrm := (TransactionTable.mem_spent.mp hspent).1
      simp [List.inj_on_of_nodup_map hsound.ids hxm hrm hid]
    by_cases hpending : n.stores.table.pending x.id = true
    · exact List.mem_append_right _ (List.mem_filter.mpr ⟨hx, by simp [hid, hpending]⟩)
    · -- It had completed when the limit was checked, and within the window that was summed up.
      obtain ⟨y, hy, hyc⟩ : ∃ y, n.stores.table.row? x.id = some y ∧ y.status = .completed := by
        cases hf : n.stores.table.row? x.id with
        | none => simp [TransactionTable.pending, hf] at hpending
        | some y => exact ⟨y, rfl, by simpa [TransactionTable.pending, hf] using hpending⟩
      obtain ⟨hym, hyi⟩ := TransactionTable.mem_of_row? hy
      obtain ⟨z, hz, hb⟩ := hext.mem hym
      rw [hb.final (by rw [hyc]; rfl)] at hz
      have hxy : x = y := List.inj_on_of_nodup_map hsound.ids hxm hz hyi.symm
      subst hxy
      refine List.mem_append_left _ (List.mem_append_left _ (List.mem_filter.mpr ⟨?_, ?_⟩))
      · exact TransactionTable.mem_spent.mpr ⟨hym, hxu, hxc, hxt⟩
      · have hwindow := Int.le_trans hsince (Int.le_trans hlast (Int.add_le_add_right hxfirst _))
        exact decide_eq_true (Int.le_of_add_le_add_right hwindow)
  have hpaid : ∀ x ∈ counted ++ [r] ++ late, x.targetAmount.Paid := by
    intro x hx
    refine paid_of_play hm ho x (TransactionTable.mem_spent.mp (?_ : x ∈ m.stores.table.spent user)).1
    simp only [List.mem_append, List.mem_singleton] at hx
    rcases hx with (hx | rfl) | hx
    · exact hext.spent (List.mem_of_mem_filter hx)
    · exact hspent
    · exact hall x (List.mem_of_mem_filter hx)
  have hnodup : all.Nodup := ((rows_nodup hsound).filter _).filter _
  have hsum := credited_le hnodup hcover hpaid
  simp only [credited, List.map_append, List.sum_append, List.map_singleton,
    List.sum_singleton] at hsum hle ⊢
  linarith

end

def servedTimes (p times : Nat) : List Move := List.replicate times (.answer p (.served 0))

/-- The transfer of 40 finds both accounts locked after its debit and stays underway. A withdrawal of
100 is checked and completes meanwhile, and a recovery completes the transfer. -/
def overspentDay : List Move :=
  debitedTransfer ++
    [.upkeep (.openAccount 1 .usd hundred), .upkeep (.hold 2), .upkeep (.hold 1)] ++
    servedTimes 0 1 ++ [.answer 0 (.elsewhere (.pause 100) ())] ++
    servedTimes 0 3 ++ [.answer 0 (.elsewhere (.pause 200) ())] ++
    servedTimes 0 5 ++ [.upkeep (.release 2), .upkeep (.release 1)] ++
    [.start (.withdraw ⟨3, hundred, some 1⟩ 1 "b")] ++ servedTimes 1 2 ++
    [.answer 1 (.elsewhere (.categories (.find 1)) (.ok (some ⟨1, none, "FOOD"⟩))),
      .answer 1 (.elsewhere (.limits (.find 1)) (.ok (some ⟨1, hundred, hundred⟩))),
      .answer 1 (.elsewhere .now (0 : Int))] ++
    servedTimes 1 7 ++ [.start (.recover 1)] ++ servedTimes 2 5

theorem play_overspentDay :
    ∃ m, Machine.play plainService {} overspentDay = some m ∧ m.Orderly 1 hundred ∧
      (m.stores.table.spent 1).map (·.targetAmount) = [forty, hundred] ∧
      (m.stores.table.spentWithin 1 0 (0 + Service.dailyWindow)).map (·.targetAmount) =
        [forty, hundred] := by
  have hp : (Machine.play plainService {} overspentDay).map (fun m =>
      (decide (m.Orderly 1 hundred), (m.stores.table.spent 1).map (·.targetAmount),
        (m.stores.table.spentWithin 1 0 (0 + Service.dailyWindow)).map (·.targetAmount))) =
      some (true, [forty, hundred], [forty, hundred]) := by
    decide +kernel
  obtain ⟨m, hm, hv⟩ := Option.map_eq_some_iff.mp hp
  simp only [Prod.mk.injEq] at hv
  exact ⟨m, hm, of_decide_eq_true hv.1, hv.2.1, hv.2.2⟩

theorem credited_eq {records : List TransactionRecord} {ds : List Decimal}
    (h : records.map (·.targetAmount) = ds) : credited records = (ds.map Decimal.value).sum := by
  subst h
  simp [credited, Function.comp_def]

theorem sum_overspentDay : ([forty, hundred].map Decimal.value).sum = 140 := by
  norm_num [Decimal.value, forty, hundred, Decimal.ofInt64, tenTo]

/-- Within 24 hours, 140 of a limit of 100. -/
theorem ceiling_exceeded_of_overspentDay :
    ∃ m, Machine.play plainService {} overspentDay = some m ∧ m.Orderly 1 hundred ∧
      hundred.value <
        credited (m.stores.table.spentWithin 1 0 (0 + Service.dailyWindow)) := by
  obtain ⟨m, hm, ho, -, hw⟩ := play_overspentDay
  refine ⟨m, hm, ho, ?_⟩
  rw [credited_eq hw, sum_overspentDay]
  norm_num [Decimal.value, hundred, Decimal.ofInt64, tenTo]

theorem daily_ceiling_overspentDay :
    ∃ m, Machine.play plainService {} overspentDay = some m ∧ m.Orderly 1 hundred ∧
      credited (m.stores.table.spent 1) * 100 < Decimal.capacity ∧
      (m.stores.table.spentWithin 1 0 (0 + Service.dailyWindow)).length = 2 ∧
      ∀ r ∈ m.stores.table.spentWithin 1 0 (0 + Service.dailyWindow),
        ∃ n, CheckedAt plainService overspentDay m r n ∧
          140 ≤ hundred.value +
            credited ((m.stores.table.spentWithin 1 0 (0 + Service.dailyWindow)).filter
              fun x => x.id != r.id && n.stores.table.pending x.id) := by
  obtain ⟨m, hm, ho, hs, hw⟩ := play_overspentDay
  have hfits : credited (m.stores.table.spent 1) * 100 < Decimal.capacity := by
    rw [credited_eq hs, sum_overspentDay]
    norm_num [Decimal.capacity]
  refine ⟨m, hm, ho, hfits, by simpa using congrArg List.length hw, fun r hr => ?_⟩
  obtain ⟨n, hn, hle⟩ := daily_ceiling hm ho hfits 0 r hr
  rw [credited_eq hw, sum_overspentDay] at hle
  exact ⟨n, hn, hle⟩

end Settlement
