import Settlement.Memory.Limits
import Settlement.Proofs.Ceiling
import Settlement.Proofs.Foreign
import Settlement.Proofs.Numerics
import Settlement.Proofs.Results

/-!
What a check of the limits decides. Main statement: an amount is let through exactly if it is within
the limit for one transaction and, with what the user completed in the last 24 hours, within the daily
one. Nothing but these records counts, and a user without limits is given the default ones.
-/

namespace Settlement

def Service.defaultLimit (s : Service) (user : UserId) : Limit := ⟨user, s.limits.daily, s.limits.single⟩

/-- The limits that the user is held to, and the rows after they were looked up: the first row of the
user's, or the default limits, which become a row of the user's then. -/
inductive Service.HoldsTo (s : Service) (user : UserId) : List Limit → Limit → List Limit → Prop
  | stored {before after : List Limit} {limit : Limit} (first : ∀ row ∈ before, row.user ≠ user)
      (own : limit.user = user) :
      HoldsTo s user (before ++ limit :: after) limit (before ++ limit :: after)
  | default {rows : List Limit} (unset : ∀ row ∈ rows, row.user ≠ user) :
      HoldsTo s user rows ⟨user, s.limits.daily, s.limits.single⟩
        (rows ++ [⟨user, s.limits.daily, s.limits.single⟩])

namespace LimitTable

variable {t : LimitTable} {user : UserId} {limit : Limit}

theorem row?_eq_some : t.row? user = some limit ↔
    limit.user = user ∧
      ∃ before after, t.rows = before ++ limit :: after ∧ ∀ row ∈ before, row.user ≠ user := by
  simp [row?, List.find?_eq_some_iff_append]

theorem row?_eq_none : t.row? user = none ↔ ∀ row ∈ t.rows, row.user ≠ user := by
  simp [row?]

end LimitTable

/-- A row is stored unless the user has one, and the one that is stored then is answered. -/
theorem LimitTable.insertIfAbsent_eq (t : LimitTable) (limit : Limit) : t.insertIfAbsent limit =
    ((t.row? limit.user).getD limit,
      ⟨t.rows ++ if t.row? limit.user = none then [limit] else []⟩) := by
  unfold insertIfAbsent
  cases t.row? limit.user with
  | none => rfl
  | some stored => simp

def limitsAt (now : Instant) : Elsewhere LimitTable where
  clock _ := now
  answer
    | .limits call, t => t.answer call
    | .now, t => (.value now, t)
    | _, t => (.panic "Unreachable", t)

namespace Flow

section

variable {α : Type} {value : α} {now : Instant} {σ : Stores} {t : LimitTable} {w' : Stores × LimitTable}

theorem Comes.findLimit {user : UserId} {next : Except ServiceError (Option Limit) → Flow Call Call.Answer α}
    (h : (next (.ok (t.row? user))).Comes (limitsAt now).act (σ, t) value w') :
    (Flow.ask (.limits (.find user)) next).Comes (limitsAt now).act (σ, t) value w' := h

theorem Comes.insertLimit (limit : Limit) {next : Except ServiceError Limit → Flow Call Call.Answer α}
    (h : (next (.ok (t.insertIfAbsent limit).1)).Comes (limitsAt now).act (σ, (t.insertIfAbsent limit).2)
      value w') :
    (Flow.ask (.limits (.insertIfAbsent limit)) next).Comes (limitsAt now).act (σ, t) value w' := h

theorem Comes.readClock {next : Instant → Flow Call Call.Answer α}
    (h : (next now).Comes (limitsAt now).act (σ, t) value w') :
    (Flow.ask .now next).Comes (limitsAt now).act (σ, t) value w' := h

theorem Comes.sumSpending {user : UserId} {since : Instant} {spent : Decimal}
    {next : Except ServiceError Decimal → Flow Call Call.Answer α}
    (hs : Decimal.sum (σ.table.spending user since) = some spent)
    (h : (next (.ok spent)).Comes (limitsAt now).act (σ, t) value w') :
    (Flow.ask (.store (.sumSpending user since)) next).Comes (limitsAt now).act (σ, t) value w' := by
  refine .ask ?_ h
  simp only [Elsewhere.act, Stores.carry, TransactionTable.answer, hs]

end
end Flow

/-- The record is one that the daily limit of the user counts: a transfer or a withdrawal of theirs that
has completed and was created at the instant or later. -/
def TransactionRecord.Counts (user : UserId) (since : Instant) (r : TransactionRecord) : Prop :=
  r.user = user ∧ r.status = .completed ∧ (r.type = .transfer ∨ r.type = .withdraw) ∧
    since ≤ r.createdAt

instance (user : UserId) (since : Instant) : DecidablePred (TransactionRecord.Counts user since) :=
  fun r => inferInstanceAs (Decidable (r.user = user ∧ r.status = .completed ∧
    (r.type = .transfer ∨ r.type = .withdraw) ∧ since ≤ r.createdAt))

namespace TransactionTable

section

variable {t t' : TransactionTable} {user : UserId} {since : Instant} {amount : Decimal}

def counted (t : TransactionTable) (user : UserId) (since : Instant) : List TransactionRecord :=
  t.rows.filter fun r => decide (r.Counts user since)

theorem mem_counted {r : TransactionRecord} :
    r ∈ t.counted user since ↔ r ∈ t.rows ∧ r.Counts user since := by
  simp [counted]

theorem spending_counted (t : TransactionTable) (user : UserId) (since : Instant) :
    t.spending user since = (t.counted user since).map (·.targetAmount) := by
  rw [spending, counted]
  congr 1
  refine List.filter_congr fun r _ => ?_
  have htype : r.type.isSpending = decide (r.type = .transfer ∨ r.type = .withdraw) := by
    cases r.type <;> rfl
  rw [Bool.eq_iff_iff, decide_eq_true_iff, htype]
  simp [TransactionRecord.Counts, and_assoc]

/-- Tables whose rows are in the order of their ids count the same if the same records of theirs
count. -/
theorem counted_congr (ht : t.rows.Pairwise (·.id < ·.id)) (ht' : t'.rows.Pairwise (·.id < ·.id))
    (h : ∀ r, r.Counts user since → (r ∈ t.rows ↔ r ∈ t'.rows)) :
    t.counted user since = t'.counted user since := by
  have hn : ∀ {u : TransactionTable}, u.rows.Pairwise (·.id < ·.id) → (u.counted user since).Nodup :=
    fun hu => (hu.imp fun hlt he => Int.ne_of_lt hlt (congrArg _ he)).filter _
  refine List.Perm.eq_of_pairwise ?_ (ht.filter _) (ht'.filter _)
    ((List.perm_ext_iff_of_nodup (hn ht) (hn ht')).mpr fun r => ?_)
  · exact fun a b _ _ hab hba => absurd (Int.lt_trans hab hba) (Int.lt_irrefl _)
  rw [mem_counted, mem_counted, and_congr_left_iff]
  exact h r

/-- What counts is added up, and the amount with it, without a sum on the way that no number has. -/
structure Addable (t : TransactionTable) (user : UserId) (since : Instant) (amount : Decimal) : Prop where
  fronts : ∀ front, front <+: t.counted user since → Decimal.Fits (credited front)
  total : Decimal.Fits (credited (t.counted user since) + amount.value)

theorem Addable.sums (h : t.Addable user since amount) : ∃ spent total : Decimal,
    Decimal.sum (t.spending user since) = some spent ∧ spent.add amount = some total ∧
      total.value = credited (t.counted user since) + amount.value := by
  have hcredited : ∀ records : List TransactionRecord,
      ((records.map (·.targetAmount)).map Decimal.value).sum = credited records := by
    intro records
    rw [List.map_map]
    rfl
  have hfronts : ∀ front, front <+: t.spending user since → Decimal.Fits (front.map Decimal.value).sum := by
    intro front hf
    rw [spending_counted] at hf
    obtain ⟨records, hr, rfl⟩ := List.prefix_map_iff.mp hf
    rw [hcredited]
    exact h.fronts records hr
  obtain ⟨spent, hsum, hspent⟩ := Decimal.sum_exact hfronts
  rw [spending_counted, hcredited] at hspent
  obtain ⟨exact, hexact⟩ := h.total
  rw [← hspent] at hexact ⊢
  obtain ⟨total, hadd, htotal⟩ := Decimal.add_exact hexact
  exact ⟨spent, total, hsum, hadd, htotal⟩

end
end TransactionTable

namespace Service

open Program Fallible

section

variable {s : Service} {σ : Stores} {t : LimitTable} {user : UserId} {amount : Decimal} {now : Instant}

def limitOf (s : Service) (t : LimitTable) (user : UserId) : Limit :=
  (t.row? user).getD (s.defaultLimit user)

theorem insertIfAbsent_default (s : Service) (t : LimitTable) (user : UserId) :
    t.insertIfAbsent (s.defaultLimit user) = (s.limitOf t user,
      ⟨t.rows ++ if t.row? user = none then [s.defaultLimit user] else []⟩) :=
  t.insertIfAbsent_eq (s.defaultLimit user)

theorem holdsTo_limitOf (s : Service) (t : LimitTable) (user : UserId) :
    s.HoldsTo user t.rows (s.limitOf t user) (t.insertIfAbsent (s.defaultLimit user)).2.rows := by
  rw [insertIfAbsent_default, limitOf]
  cases h : t.row? user with
  | some limit =>
    obtain ⟨own, before, after, hrows, first⟩ := LimitTable.row?_eq_some.mp h
    rw [if_neg nofun, List.append_nil, hrows]
    exact .stored first own
  | none =>
    rw [if_pos rfl]
    exact .default (LimitTable.row?_eq_none.mp h)

theorem getLimits_comes : (s.getLimits user).run.Comes (limitsAt now).act (σ, t) (.ok (s.limitOf t user))
    (σ, (t.insertIfAbsent (s.defaultLimit user)).2) := by
  refine .findLimit ?_
  rw [insertIfAbsent_default]
  cases h : t.row? user with
  | some limit =>
    rw [if_neg nofun, List.append_nil, limitOf, h]
    exact Flow.comes_done _
  | none =>
    refine .note (.insertLimit (s.defaultLimit user) ?_)
    rw [insertIfAbsent_default, h]
    exact Flow.comes_done _

/-- An amount above the limit for one transaction is refused before anything is added up. -/
theorem checkLimit_single (hs : (s.limitOf t user).single < amount) (σ : Stores) :
    (s.checkLimit user amount).run.Comes (limitsAt now).act (σ, t)
      (.error (.limitExceeded
        ("Transaction amount exceeds single limit of " ++ (s.limitOf t user).single.text)))
      (σ, (t.insertIfAbsent (s.defaultLimit user)).2) := by
  refine comes_bind getLimits_comes ?_
  rw [if_pos hs]
  exact Flow.comes_done _

/-- Within that limit, what the user spent decides. -/
theorem checkLimit_daily {spent total : Decimal} (hs : ¬(s.limitOf t user).single < amount)
    (hadd : spent.add amount = some total)
    (hsum : Decimal.sum (σ.table.spending user (now - dailyWindow)) = some spent) :
    (s.checkLimit user amount).run.Comes (limitsAt now).act (σ, t)
      (if (s.limitOf t user).daily < total then
        .error (.limitExceeded ("Daily limit exceeded. You already spent " ++ spent.text ++
          " in last 24h. Limit is " ++ (s.limitOf t user).daily.text))
      else .ok ())
      (σ, (t.insertIfAbsent (s.defaultLimit user)).2) := by
  refine comes_bind getLimits_comes ?_
  rw [if_neg hs]
  refine .readClock (.sumSpending hsum ?_)
  dsimp only [Flow.bind, ExceptT.bindCont]
  rw [hadd]
  dsimp only
  split
  · exact .note (Flow.comes_done _)
  · exact Flow.comes_done _

end

/-- What the check says depends on the limits, the amount and what was spent only. -/
theorem checkLimit_comes (s : Service) (t : LimitTable) (user : UserId) (now : Instant)
    {amount spent total : Decimal} (hadd : spent.add amount = some total) :
    ∃ result : Except ServiceError Unit,
      (∀ σ : Stores, Decimal.sum (σ.table.spending user (now - dailyWindow)) = some spent →
        (s.checkLimit user amount).run.Comes (limitsAt now).act (σ, t) result
          (σ, (t.insertIfAbsent (s.defaultLimit user)).2)) ∧
      (result = .ok () ↔ amount ≤ (s.limitOf t user).single ∧ total ≤ (s.limitOf t user).daily) ∧
      ∀ e, result = .error e → ∃ text, e = .limitExceeded text := by
  by_cases hs : (s.limitOf t user).single < amount
  · refine ⟨_, fun σ _ => checkLimit_single hs σ, ?_, fun e he => ⟨_, (Except.error.inj he).symm⟩⟩
    exact iff_of_false (by simp) fun h => Decimal.not_le.mpr hs h.1
  · refine ⟨_, fun σ hsum => checkLimit_daily hs hadd hsum, ?_⟩
    rw [and_iff_right (Decimal.not_lt.mp hs)]
    split
    next hd =>
      refine ⟨iff_of_false (by simp) (Decimal.not_le.mpr hd), fun e he => ?_⟩
      exact ⟨_, (Except.error.inj he).symm⟩
    next hd => exact ⟨iff_of_true rfl (Decimal.not_lt.mp hd), fun e he => by cases he⟩

end Service

/-- If its sums are exact, a check lets the amount through exactly if it is within both limits that the
user is held to, the daily one together with the completed transfers and withdrawals of the last 24
hours; else it answers that a limit is exceeded. All it changes is that a user without limits is given
the default ones. Stores in which the same records count are answered alike. -/
theorem check_passes_iff {s : Service} {σ : Stores} {t : LimitTable} {user : UserId} {amount : Decimal}
    {now : Instant} (hsums : σ.table.Addable user (now - 24 * 3600 * 1000000) amount) :
    ∃ (result : Except ServiceError Unit) (limit : Limit) (t' : LimitTable),
      s.HoldsTo user t.rows limit t'.rows ∧
      (s.checkLimit user amount).run.Comes (limitsAt now).act (σ, t) result (σ, t') ∧
      (result = .ok () ↔ amount.value ≤ limit.single.value ∧
        credited (σ.table.counted user (now - 24 * 3600 * 1000000)) + amount.value ≤
          limit.daily.value) ∧
      (∀ e, result = .error e → ∃ text, e = .limitExceeded text) ∧
      ∀ σ' : Stores, σ.table.rows.Pairwise (·.id < ·.id) → σ'.table.rows.Pairwise (·.id < ·.id) →
        (∀ r, r.Counts user (now - 24 * 3600 * 1000000) → (r ∈ σ.table.rows ↔ r ∈ σ'.table.rows)) →
        (s.checkLimit user amount).run.Comes (limitsAt now).act (σ', t) result (σ', t') := by
  rw [← Service.dailyWindow_eq] at hsums ⊢
  obtain ⟨spent, total, hsum, hadd, htotal⟩ := hsums.sums
  obtain ⟨result, hcomes, hok, herror⟩ := s.checkLimit_comes t user now hadd
  refine ⟨result, s.limitOf t user, _, s.holdsTo_limitOf t user, hcomes σ hsum, ?_, herror,
    fun σ' hσ hσ' hsame => hcomes σ' ?_⟩
  · rw [hok, Decimal.le_iff_value, Decimal.le_iff_value, htotal]
  · rwa [TransactionTable.spending_counted, ← TransactionTable.counted_congr hσ hσ' hsame,
      ← TransactionTable.spending_counted]

def spentForty : TransactionRecord :=
  ⟨⟨1, some 1, some 2, forty, forty, .one, .usd, .transfer, some 1, "a"⟩, 1, .completed, .creditDone,
    .none, 1, none, 0, 5⟩

/-- The transfer was created exactly 24 hours ago. An older withdrawal, a deposit, a transfer under way
and one of another user do not count. -/
def edgeOfWindow : Stores where
  table :=
    { rows := [spentForty,
        { spentForty with id := 2, type := .withdraw, target := none, key := "b", createdAt := -1 },
        { spentForty with id := 3, type := .deposit, source := none, key := "c" },
        { spentForty with id := 4, status := .processing, step := .debitDone, key := "d" },
        { spentForty with id := 5, user := 2, key := "e" }]
      keys := [("a", 1), ("b", 2), ("c", 3), ("d", 4), ("e", 5)] }

theorem edgeOfWindow_counted :
    edgeOfWindow.table.counted 1 (24 * 3600 * 1000000 - 24 * 3600 * 1000000) = [spentForty] := by
  decide

theorem credited_spentForty : credited [spentForty] = 40 := by
  norm_num [credited, spentForty, Decimal.value, forty, Decimal.ofInt64, tenTo]

theorem edgeOfWindow_addable :
    edgeOfWindow.table.Addable 1 (24 * 3600 * 1000000 - 24 * 3600 * 1000000) forty := by
  have hforty : forty.value = 40 := by norm_num [Decimal.value, forty, Decimal.ofInt64, tenTo]
  refine ⟨fun front hf => ?_, ?_⟩
  · rw [edgeOfWindow_counted, List.prefix_cons_iff] at hf
    rcases hf with rfl | ⟨rest, rfl, hrest⟩
    · exact ⟨.zero, by simp [credited]⟩
    · rw [List.prefix_nil.mp hrest, credited_spentForty]
      exact ⟨forty, hforty⟩
  · rw [edgeOfWindow_counted, credited_spentForty, hforty]
    obtain ⟨d, hd⟩ := Decimal.exists_cents (n := 8000) (by decide) (by decide)
    exact ⟨d, by rw [hd]; norm_num⟩

/-- The user has no limits yet, and the store that remembers only the transfer answers alike. -/
theorem check_passes_iff_edgeOfWindow :
    edgeOfWindow.table.Addable 1 (24 * 3600 * 1000000 - 24 * 3600 * 1000000) forty ∧
    (plainService.checkLimit 1 forty).run.Comes (limitsAt (24 * 3600 * 1000000)).act
      (edgeOfWindow, {}) (.ok ()) (edgeOfWindow, ⟨[⟨1, hundred, hundred⟩]⟩) ∧
    (plainService.checkLimit 1 forty).run.Comes (limitsAt (24 * 3600 * 1000000)).act
      ({ table := { rows := [spentForty] } }, {}) (.ok ())
      ({ table := { rows := [spentForty] } }, ⟨[⟨1, hundred, hundred⟩]⟩) := by
  obtain ⟨result, limit, ⟨rows⟩, hholds, hcomes, hok, -, hsame⟩ :=
    check_passes_iff (s := plainService) (t := {}) edgeOfWindow_addable
  obtain ⟨rfl, rfl⟩ : limit = ⟨1, hundred, hundred⟩ ∧ rows = [⟨1, hundred, hundred⟩] := by
    generalize hnone : ({} : LimitTable).rows = none at hholds
    cases hholds with
    | stored => simp at hnone
    | default =>
      subst hnone
      exact ⟨rfl, rfl⟩
  have hresult : result = .ok () := by
    rw [hok, edgeOfWindow_counted, credited_spentForty]
    norm_num [Decimal.value, forty, hundred, Decimal.ofInt64, tenTo]
  subst hresult
  refine ⟨edgeOfWindow_addable, hcomes, hsame { table := { rows := [spentForty] } } (by decide)
    (by decide) fun r hr => ?_⟩
  have hmem : r ∈ edgeOfWindow.table.counted 1 (24 * 3600 * 1000000 - 24 * 3600 * 1000000) ↔
      r ∈ edgeOfWindow.table.rows ∧ r.Counts 1 (24 * 3600 * 1000000 - 24 * 3600 * 1000000) :=
    TransactionTable.mem_counted
  rw [edgeOfWindow_counted] at hmem
  exact ⟨fun h => hmem.mpr ⟨h, hr⟩, fun h => (hmem.mp h).1⟩

end Settlement
