import Settlement.Proofs.Limits
import Settlement.Proofs.Programs

/-!
What callers do with the limits: they read them, check an amount, or set them. An errand is known by the
calls it may make after those it made. Main statement: after a history of such calls, a user has the
limits that were set last, or else none or the default ones.
-/

namespace Settlement

structure Limit.Proper (limit : Limit) : Prop where
  positive : 0 < limit.single.value
  within : limit.single.value ≤ limit.daily.value

structure LimitEvent where
  task : Nat
  call : LimitCall
  answer : call.Answer

namespace LimitEvent

def told? : LimitEvent → Option Limit
  | ⟨_, .find _, .ok found⟩ => found
  | ⟨_, .insertIfAbsent _, .ok stored⟩ => some stored
  | _ => none

def written? : LimitEvent → Option Limit
  | ⟨_, .update limit, _⟩ => some limit
  | _ => none

variable {e : LimitEvent} {history : List LimitEvent} {p : Nat} {user : UserId} {limit : Limit}

/-- What was answered to the task. Histories are newest first. -/
def own (p : Nat) (history : List LimitEvent) : List LimitEvent := history.filter (·.task == p)

theorem own_cons (he : e.task = p) : own p (e :: history) = e :: own p history := by
  simp [own, he]

theorem own_cons_of_ne (he : e.task ≠ p) : own p (e :: history) = own p history := by
  simp [own, he]

theorem mem_own : e ∈ own p history ↔ e ∈ history ∧ e.task = p := by
  simp [own]

def latest (history : List LimitEvent) (user : UserId) : Option Limit :=
  (history.filterMap written?).find? (·.user == user)

theorem latest_cons_none (he : e.written? = none) : latest (e :: history) user = latest history user := by
  rw [latest, List.filterMap_cons_none he, latest]

theorem latest_cons_some (he : e.written? = some limit) :
    latest (e :: history) = Function.update (latest history) limit.user (some limit) := by
  funext user
  rw [latest, List.filterMap_cons_some he, List.find?_cons]
  by_cases hu : limit.user = user
  · subst hu
    simp
  · rw [Function.update_of_ne (Ne.symm hu), beq_false_of_ne hu]
    rfl

theorem latest_written (h : latest history user = some limit) :
    limit.user = user ∧ ∃ w ∈ history, w.written? = some limit :=
  ⟨by simpa using List.find?_some h, List.mem_filterMap.mp (List.mem_of_find?_eq_some h)⟩

end LimitEvent

namespace LimitTable

variable {t t' : LimitTable} {user : UserId} {limit : Limit}

theorem user_of_row? (h : t.row? user = some limit) : limit.user = user := (row?_eq_some.mp h).1

theorem row?_append (h : t.row? limit.user = none) :
    LimitTable.row? ⟨t.rows ++ [limit]⟩ = Function.update t.row? limit.user (some limit) := by
  funext user
  rw [row?, List.find?_append]
  by_cases hu : user = limit.user
  · subst hu
    rw [show t.rows.find? _ = none from h, Function.update_self]
    simp
  · rw [Function.update_of_ne hu, List.find?_singleton, if_neg (by simpa using Ne.symm hu), Option.or_none]
    rfl

theorem row?_map (h : (t.row? limit.user).isSome) :
    LimitTable.row? ⟨t.rows.map fun r => if r.user = limit.user then limit else r⟩ =
      Function.update t.row? limit.user (some limit) := by
  funext user
  have hsame : ∀ r : Limit, (if r.user = limit.user then limit else r).user = r.user := by
    intro r
    split
    next hr => exact hr.symm
    next => rfl
  have hfind : LimitTable.row? ⟨t.rows.map fun r => if r.user = limit.user then limit else r⟩ user =
      (t.row? user).map fun r => if r.user = limit.user then limit else r := by
    rw [row?, List.find?_map, row?]
    congr 2
    funext r
    rw [Function.comp_apply, hsame]
  rw [hfind]
  cases hr : t.row? user with
  | none =>
    have hu : user ≠ limit.user := by
      rintro rfl
      simp [hr] at h
    rw [Function.update_of_ne hu, hr]
    rfl
  | some r =>
    have hru := user_of_row? hr
    by_cases hu : user = limit.user
    · subst hu
      simp [hru]
    · rw [Function.update_of_ne hu, hr, Option.map_some, if_neg (hru ▸ hu)]

inductive Answers (t t' : LimitTable) : (call : LimitCall) → call.Answer → Prop
  | found {user : UserId} (rows : t'.row? = t.row?) : Answers t t' (.find user) (.ok (t.row? user))
  | kept {limit stored : Limit} (row : t.row? limit.user = some stored) (rows : t'.row? = t.row?) :
      Answers t t' (.insertIfAbsent limit) (.ok stored)
  | inserted {limit : Limit} (row : t.row? limit.user = none)
      (rows : t'.row? = Function.update t.row? limit.user (some limit)) :
      Answers t t' (.insertIfAbsent limit) (.ok limit)
  | updated {limit : Limit} (row : (t.row? limit.user).isSome)
      (rows : t'.row? = Function.update t.row? limit.user (some limit)) :
      Answers t t' (.update limit) (.ok true)
  | missed {limit : Limit} (row : t.row? limit.user = none) (rows : t'.row? = t.row?) :
      Answers t t' (.update limit) (.ok false)

theorem answers (t : LimitTable) (call : LimitCall) :
    ∃ a t', t.answer call = (.value a, t') ∧ t.Answers t' call a := by
  cases call with
  | find user => exact ⟨_, _, rfl, .found rfl⟩
  | insertIfAbsent limit =>
    refine ⟨.ok (t.insertIfAbsent limit).1, (t.insertIfAbsent limit).2, rfl, ?_⟩
    rw [insertIfAbsent_eq]
    cases hr : t.row? limit.user with
    | none => exact .inserted hr (row?_append hr)
    | some stored => exact .kept hr (by simp)
  | update limit =>
    refine ⟨.ok (t.update limit).1, (t.update limit).2, rfl, ?_⟩
    unfold update
    split
    next hr => exact .updated hr (row?_map hr)
    next hr => exact .missed (Option.not_isSome_iff_eq_none.mp hr) rfl

theorem isSome_update (h : (t.row? user).isSome) :
    (Function.update t.row? limit.user (some limit) user).isSome := by
  by_cases hu : user = limit.user
  · rw [hu, Function.update_self]
    rfl
  · rwa [Function.update_of_ne hu]

/-- Nobody loses their limits. -/
theorem Answers.keeps {call : LimitCall} {a : call.Answer} (h : t.Answers t' call a)
    (hr : (t.row? user).isSome) : (t'.row? user).isSome := by
  cases h with
  | found rows | kept _ rows | missed _ rows => rwa [rows]
  | inserted _ rows | updated _ rows =>
    rw [rows]
    exact isSome_update hr

/-- Who is told limits is told those that are stored. -/
theorem Answers.told {p : Nat} {call : LimitCall} {a : call.Answer} (h : t.Answers t' call a)
    (ht : LimitEvent.told? ⟨p, call, a⟩ = some limit) : t'.row? limit.user = some limit := by
  cases h with
  | found rows =>
    rwa [rows, user_of_row? ht]
  | kept row rows =>
    cases ht
    rwa [rows, user_of_row? row]
  | inserted _ rows =>
    cases ht
    rw [rows, Function.update_self]
  | updated | missed => cases ht

end LimitTable

inductive LimitErrand where
  | get (user : UserId)
  | check (user : UserId) (amount : Decimal)
  | update (user : UserId) (daily single : Decimal)

/-- What is left of an errand. It ends with the limits that it answers, if it answers any. -/
abbrev LimitWork := Flow Call Call.Answer (Except ServiceError (Option Limit))

namespace LimitErrand

def work (s : Service) : LimitErrand → LimitWork
  | .get user => (some <$> s.getLimits user).run
  | .check user amount => ((fun _ => none) <$> s.checkLimit user amount).run
  | .update user daily single => (some <$> s.updateLimits user daily single).run

/-- The errand may make the call after those that it made. -/
def May (s : Service) (errand : LimitErrand) (past : List LimitEvent) : LimitCall → Prop
  | .find _ => True
  | .insertIfAbsent limit => limit = s.defaultLimit limit.user
  | .update limit => errand = .update limit.user limit.daily limit.single ∧ limit.Proper ∧
      ∃ e ∈ past, ∃ told, e.told? = some told ∧ told.user = limit.user

def Ends : LimitErrand → List LimitEvent → Flow.Outcome (Except ServiceError (Option Limit)) → Prop
  | .get user, past, outcome => ∃ limit, outcome = .value (.ok (some limit)) ∧ limit.user = user ∧
      ∃ e ∈ past, e.told? = some limit
  | .check .., _, _ => True
  | .update user daily single, past, outcome =>
      (Limit.Proper ⟨user, daily, single⟩ ∧ outcome = .value (.ok (some ⟨user, daily, single⟩)) ∧
        ∃ e ∈ past, e.written? = some ⟨user, daily, single⟩) ∨
      (¬Limit.Proper ⟨user, daily, single⟩ ∧ past = [] ∧
        ∃ text, outcome = .value (.error (.badRequest text)))

end LimitErrand

def LimitCall.Fits : (call : LimitCall) → call.Answer → Prop
  | .find user, a => ∃ found : Option Limit, a = .ok found ∧ ∀ limit ∈ found, limit.user = user
  | .insertIfAbsent limit, a => ∃ stored : Limit, a = .ok stored ∧ stored.user = limit.user
  | .update _, a => a = .ok true

namespace LimitTable

/-- What is left of the limits after a history in which all callers did as they may. -/
inductive After (s : Service) : LimitTable → List LimitEvent → Prop
  | empty : After s {} []
  | call {t t' : LimitTable} {past : List LimitEvent} {p : Nat} {errand : LimitErrand}
      {call : LimitCall} {a : call.Answer} (before : After s t past)
      (may : errand.May s (LimitEvent.own p past) call) (answers : t.Answers t' call a) :
      After s t' (⟨p, call, a⟩ :: past)

namespace After

open LimitEvent

variable {s : Service} {t t' : LimitTable} {past older : List LimitEvent} {e : LimitEvent} {p : Nat}
  {user : UserId} {limit : Limit}

theorem suffix (h : t.After s past) (ho : older <:+ past) : ∃ t' : LimitTable, t'.After s older := by
  induction h with
  | empty =>
    rw [List.suffix_nil.mp ho]
    exact ⟨_, .empty⟩
  | call before may answers ih =>
    rcases List.suffix_cons_iff.mp ho with rfl | ho
    · exact ⟨_, .call before may answers⟩
    · exact ih ho

/-- Who was told limits has limits. -/
theorem present (h : t.After s past) (he : e ∈ past) (ht : e.told? = some limit) :
    (t.row? limit.user).isSome := by
  induction h with
  | empty => contradiction
  | call _ _ answers ih =>
    rcases List.mem_cons.mp he with rfl | he
    · rw [answers.told ht]
      rfl
    · exact answers.keeps (ih he)

/-- Errands are answered as they rely on: what a caller sets limits of was stored before. -/
theorem fits {errand : LimitErrand} {call : LimitCall} {a : call.Answer} (h : t.After s past)
    (may : errand.May s (own p past) call) (answers : t.Answers t' call a) : call.Fits a := by
  cases answers with
  | found => exact ⟨_, rfl, fun limit hl => user_of_row? hl⟩
  | kept row => exact ⟨_, rfl, user_of_row? row⟩
  | inserted => exact ⟨_, rfl, rfl⟩
  | updated => rfl
  | missed row =>
    obtain ⟨-, -, e, he, told, ht, hu⟩ := may
    have hp := h.present (mem_own.mp he).1 ht
    rw [hu, row] at hp
    contradiction

/-- A call sets limits, or it gives those who have none the default ones at most. -/
theorem effect {errand : LimitErrand} {call : LimitCall} {a : call.Answer} (h : t.After s past)
    (may : errand.May s (own p past) call) (answers : t.Answers t' call a) :
    (written? ⟨p, call, a⟩ = none ∧ ∀ user, t'.row? user = t.row? user ∨
      t.row? user = none ∧ t'.row? user = some (s.defaultLimit user)) ∨
    ∃ limit, written? ⟨p, call, a⟩ = some limit ∧
      t'.row? = Function.update t.row? limit.user (some limit) := by
  have hfits := h.fits may answers
  cases answers with
  | found rows | kept _ rows => exact .inl ⟨rfl, fun user => .inl (congrFun rows user)⟩
  | @inserted limit row rows =>
    refine .inl ⟨rfl, fun user => ?_⟩
    rw [rows]
    by_cases hu : user = limit.user
    · subst hu
      exact .inr ⟨row, (Function.update_self ..).trans (congrArg some may)⟩
    · exact .inl (Function.update_of_ne hu ..)
  | updated _ rows => exact .inr ⟨_, rfl, rows⟩
  | missed => cases hfits

/-- A user has the limits that were set last, or else none or the default ones. -/
theorem row (h : t.After s past) (user : UserId) : t.row? user = latest past user ∨
    latest past user = none ∧ t.row? user = some (s.defaultLimit user) := by
  induction h with
  | empty => exact .inl rfl
  | call before may answers ih =>
    rcases before.effect may answers with ⟨hw, hrows⟩ | ⟨limit, hw, hrows⟩
    · rw [latest_cons_none hw]
      rcases hrows user with hr | ⟨hn, hr⟩
      · rwa [hr]
      · refine .inr ⟨?_, hr⟩
        rcases ih with hi | ⟨hi, -⟩
        · exact hi.symm.trans hn
        · exact hi
    · rw [latest_cons_some hw, hrows]
      by_cases hu : user = limit.user
      · subst hu
        exact .inl (by rw [Function.update_self, Function.update_self])
      · rwa [Function.update_of_ne hu, Function.update_of_ne hu]

theorem written?_of_told? (h : e.told? = some limit) : e.written? = none := by
  obtain ⟨p, call, a⟩ := e
  cases call with
  | find | insertIfAbsent => rfl
  | update => cases h

/-- Callers are told the default limits or ones that were set before. -/
theorem told (h : t.After s (e :: older)) (ht : e.told? = some limit) :
    limit = s.defaultLimit limit.user ∨ ∃ w ∈ older, w.written? = some limit := by
  have hrow : t.row? limit.user = some limit := by
    cases h with
    | call _ _ answers => exact answers.told ht
  rcases h.row limit.user with hl | ⟨-, hd⟩
  · rw [hrow, latest_cons_none (written?_of_told? ht)] at hl
    exact .inr (latest_written hl.symm).2
  · exact .inl (Option.some.inj (hrow.symm.trans hd))

theorem proper (h : t.After s past) (he : e ∈ past) (hw : e.written? = some limit) : limit.Proper := by
  induction h with
  | empty => contradiction
  | @call _ _ _ _ _ call _ _ may _ ih =>
    rcases List.mem_cons.mp he with rfl | he
    · cases call with
      | find | insertIfAbsent => cases hw
      | update =>
        cases hw
        exact may.2.1
    · exact ih he

end After
end LimitTable

def LimitErrand.asking (s : Service) (p : Nat) (errand : LimitErrand) :
    Asking Call.Answer (List LimitEvent) where
  ask
    | .limits call, next, past => errand.May s past call ∧
        ∀ a : call.Answer, call.Fits a → next a (⟨p, call, a⟩ :: past)
    | _, next, past => ∀ a, next a past
  mono {q} _ _ _ hn h := by
    cases q with
    | limits call => exact ⟨h.1, fun a ha => hn _ _ (h.2 a ha)⟩
    | _ => exact fun a => hn _ _ (h a)

theorem LimitErrand.asking_elsewhere {s : Service} {p : Nat} {errand : LimitErrand} {call : Call}
    {next : call.Answer → List LimitEvent → Prop} {past : List LimitEvent}
    (hc : ∀ c, call ≠ .limits c) :
    (errand.asking s p).ask call next past ↔ ∀ a, next a past := by
  cases call with
  | limits c => exact absurd rfl (hc c)
  | _ => exact Iff.rfl

def Flow.ended? : Flow Q A α → Option (Outcome α)
  | .done a => some (.value a)
  | .panic message => some (.panic message)
  | .note _ rest => rest.ended?
  | .ask .. => none

section

variable {Q σ α : Type} {A : Q → Type} {asking : Asking A σ} {x : Flow Q A α}
  {post : σ → Flow.Outcome α → Prop} {s : σ}

theorem Flow.Tells.ready (h : x.Tells asking post s) : x.ready.Tells asking post s := by
  induction x with
  | note e rest ih => exact ih h
  | done | panic | ask => exact h

theorem Flow.Tells.ended {outcome : Flow.Outcome α} (h : x.Tells asking post s)
    (he : x.ended? = some outcome) : post s outcome := by
  induction x with
  | note e rest ih => exact ih h he
  | done | panic =>
    cases he
    exact h
  | ask => cases he

end

namespace LimitErrand

open Service Program Fallible Reports

section

variable {s : Service} {p : Nat} {errand : LimitErrand} {user : UserId} {past : List LimitEvent}

theorem getLimits_reports {ok : Limit → List LimitEvent → Prop}
    {err : ServiceError → List LimitEvent → Prop} {broke : List LimitEvent → Prop}
    (ho : ∀ limit past, limit.user = user → (∃ e ∈ past, e.told? = some limit) → ok limit past) :
    Reports (errand.asking s p) (s.getLimits user) ok err broke past := by
  refine of_bind.mpr ⟨trivial, ?_⟩
  rintro a ⟨found, rfl, hf⟩
  cases found with
  | some limit =>
    exact ho limit _ (hf limit rfl) ⟨_, List.mem_cons_self, rfl⟩
  | none =>
    refine of_bind.mpr (of_log.mpr ⟨rfl, ?_⟩)
    rintro a ⟨stored, rfl, hu⟩
    exact ho stored _ hu ⟨_, List.mem_cons_self, rfl⟩

theorem checkLimit_reports {amount : Decimal} : Reports (errand.asking s p) (s.checkLimit user amount)
    (fun _ _ => True) (fun _ _ => True) (fun _ => True) past := by
  refine of_bind.mpr (getLimits_reports fun limit past _ _ => ?_)
  split
  · trivial
  refine of_bind.mpr fun now => of_bind.mpr fun spent => ?_
  cases spent with
  | error e => trivial
  | ok spent =>
    dsimp only [Flow.Tells, Closes]
    split
    · trivial
    · split <;> trivial

theorem updateLimits_reports {daily single : Decimal} :
    Reports ((LimitErrand.update user daily single).asking s p) (s.updateLimits user daily single)
      (fun limit past => Limit.Proper ⟨user, daily, single⟩ ∧ limit = ⟨user, daily, single⟩ ∧
        ∃ e ∈ past, e.written? = some ⟨user, daily, single⟩)
      (fun e past => ¬Limit.Proper ⟨user, daily, single⟩ ∧ past = [] ∧ ∃ text, e = .badRequest text)
      (fun _ => False) [] := by
  unfold updateLimits
  dsimp only
  split
  next hz =>
    rw [Decimal.le_iff_value, Decimal.le_iff_value, Decimal.value_zero] at hz
    refine of_throw.mpr ⟨fun hp => ?_, rfl, _, rfl⟩
    have hpositive := hp.positive
    have hwithin := hp.within
    rcases hz with hz | hz <;> linarith
  next hz =>
    rw [not_or, Decimal.not_le, Decimal.not_le, Decimal.lt_iff_value, Decimal.lt_iff_value,
      Decimal.value_zero] at hz
    split
    next hw =>
      exact of_throw.mpr ⟨fun hp => not_lt.mpr hp.within (Decimal.lt_iff_value.mp hw), rfl, _, rfl⟩
    next hw =>
      have hp : Limit.Proper ⟨user, daily, single⟩ :=
        ⟨hz.2, Decimal.le_iff_value.mp (Decimal.not_lt.mp hw)⟩
      refine of_bind.mpr (getLimits_reports fun limit past hu ht => ?_)
      obtain ⟨e, he, ht⟩ := ht
      refine of_bind.mpr ⟨⟨rfl, hp, e, he, limit, ht, hu⟩, ?_⟩
      rintro a rfl
      exact ⟨hp, rfl, _, List.mem_cons_self, rfl⟩

/-- Errands keep to what they may, if they are answered as they rely on. -/
theorem work_tells (s : Service) (p : Nat) (errand : LimitErrand) :
    (errand.work s).Tells (errand.asking s p) errand.Ends [] := by
  cases errand with
  | get user =>
    have hg : Reports (asking s p (.get user)) (some <$> s.getLimits user)
        (fun limit past => Ends (.get user) past (.value (.ok limit))) (fun _ _ => False)
        (fun _ => False) [] :=
      of_map.mpr (getLimits_reports fun limit past hu ht => ⟨limit, rfl, hu, ht⟩)
    refine Flow.Tells.mono hg fun past outcome h => ?_
    rcases outcome with (e | limit) | message
    · exact h.elim
    · exact h
    · exact h.elim
  | check user amount =>
    have hc : Reports (asking s p (.check user amount)) ((fun _ => none) <$> s.checkLimit user amount)
        (fun (_ : Option Limit) _ => True) (fun _ _ => True) (fun _ => True) [] :=
      of_map.mpr checkLimit_reports
    exact Flow.Tells.mono hc fun _ _ _ => trivial
  | update user daily single =>
    have hu : Reports (asking s p (.update user daily single)) (some <$> s.updateLimits user daily single)
        (fun limit past => Ends (.update user daily single) past (.value (.ok limit)))
        (fun e past => Ends (.update user daily single) past (.value (.error e))) (fun _ => False) [] := by
      refine of_map.mpr (updateLimits_reports.mono ?_ ?_ fun _ => id)
      · rintro limit past ⟨hp, rfl, hw⟩
        exact .inl ⟨hp, rfl, hw⟩
      · rintro e past ⟨hp, hpast, text, rfl⟩
        exact .inr ⟨hp, hpast, text, rfl⟩
    refine Flow.Tells.mono hu fun past outcome h => ?_
    rcases outcome with (e | limit) | message
    · exact h
    · exact h
    · exact h.elim

end
end LimitErrand

end Settlement
