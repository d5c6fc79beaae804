import Settlement.Memory.RateCache
import Settlement.Proofs.Machine
import Settlement.Proofs.Results
import Settlement.Proofs.Values
import Settlement.Service.Rates

/-!
Rates asked for one after the other, with a provider that may answer anything. Main statement: a rate is
the one that the provider told last for the ordered pair, just now or not long ago, and a call without a
rate leaves no trace.
-/

namespace Settlement

/-- A call for a rate: when the kept ones are looked at, what the provider answers if it is asked, and
when it has answered. -/
structure Inquiry where
  source : Currency
  target : Currency
  asked : Instant
  response : Except RateError RateResponse
  answered : Instant

def usableRate (target : Currency) : Except RateError RateResponse → Option Decimal
  | .ok response => (response.rates.lookup target.code).filter fun rate => Decimal.zero < rate
  | .error _ => none

structure Quote extends Inquiry where
  outcome : Flow.Outcome (Except RateError Decimal)
  fetched : List (Currency × Currency)

abbrev RateState := RateCache × List (Currency × Currency)

namespace Inquiry

open Fallible Reports

def answer (x : Inquiry) : (call : Call) → RateState → Flow.Outcome call.Answer × RateState
  | .rates (.lookup source target), w => (.value (w.1.lookup source target x.asked), w)
  | .rates (.fetch source target), w => (.value x.response, w.1, w.2 ++ [(source, target)])
  | .rates (.keep source target rate), w => (.value (), w.1.keep source target rate x.answered, w.2)
  | _, w => (.panic "Unreachable", w)

def run (s : Service) (x : Inquiry) (c : RateCache) : Quote × RateCache :=
  let result := (s.getRate x.source x.target).run.run x.answer (c, [])
  (⟨x, result.1, result.2.2.2⟩, result.2.2.1)

/-- What may come of an inquiry, and the rates kept from then on. -/
inductive Way (x : Inquiry) (c : RateCache) : Quote → RateCache → Prop
  | same (pair : x.source = x.target) : Way x c ⟨x, .value (.ok .one), []⟩ c
  | kept {rate : Decimal} (pair : x.source ≠ x.target)
      (hit : c.lookup x.source x.target x.asked = some rate) : Way x c ⟨x, .value (.ok rate), []⟩ c
  | told {rate : Decimal} (pair : x.source ≠ x.target)
      (miss : c.lookup x.source x.target x.asked = none)
      (usable : usableRate x.target x.response = some rate) :
      Way x c ⟨x, .value (.ok rate), [(x.source, x.target)]⟩ (c.keep x.source x.target rate x.answered)
  | refused {e : RateError} (pair : x.source ≠ x.target)
      (miss : c.lookup x.source x.target x.asked = none)
      (unusable : usableRate x.target x.response = none) :
      Way x c ⟨x, .value (.error e), [(x.source, x.target)]⟩ c

section

variable {s : Service} {x : Inquiry} {c : RateCache} {source target : Currency}
  {w : RateState} {err : RateError → RateState → Prop} {broke : RateState → Prop}

theorem lookupRate_reports {ok : Option Decimal → RateState → Prop}
    (h : ok (w.1.lookup source target x.asked) w) :
    Reports (Flow.answering x.answer) (Program.lookupRate source target) ok err broke w := ⟨_, _, rfl, h⟩

theorem fetchRate_reports {ok : RateResponse → RateState → Prop}
    (h : Closes ok err broke (w.1, w.2 ++ [(source, target)]) (.value x.response)) :
    Reports (Flow.answering x.answer) (Program.fetchRate source target) ok err broke w := ⟨_, _, rfl, h⟩

theorem keepRate_reports {rate : Decimal} {ok : Unit → RateState → Prop}
    (h : ok () (w.1.keep source target rate x.answered, w.2)) :
    Reports (Flow.answering x.answer) (Program.keepRate source target rate) ok err broke w := ⟨_, _, rfl, h⟩

theorem getRate_reports : Reports (Flow.answering x.answer) (s.getRate x.source x.target)
    (fun rate w => x.Way c ⟨x, .value (.ok rate), w.2⟩ w.1)
    (fun e w => x.Way c ⟨x, .value (.error e), w.2⟩ w.1) (fun _ => False) (c, []) := by
  unfold Service.getRate
  split
  next pair => exact .same pair
  next pair =>
    refine of_bind.mpr (lookupRate_reports ?_)
    split
    next rate hit => exact .kept pair hit
    next miss =>
      refine of_bind.mpr (of_log.mpr (of_bind.mpr (fetchRate_reports ?_)))
      cases hr : x.response with
      | error e => exact .refused pair miss (by rw [hr]; rfl)
      | ok response =>
        dsimp only [Closes]
        split
        next hl => exact of_throw.mpr (.refused pair miss (by simp [usableRate, hr, hl]))
        next rate hl =>
          split
          next hp =>
            exact of_throw.mpr (.refused pair miss (by simp [usableRate, hr, hl, Decimal.not_lt.mpr hp]))
          next hp =>
            refine of_bind.mpr (keepRate_reports (.told pair miss ?_))
            simp [usableRate, hr, hl, Decimal.not_le.mp hp]

end

theorem way (s : Service) (x : Inquiry) (c : RateCache) : x.Way c (x.run s c).1 (x.run s c).2 := by
  obtain ⟨outcome, events, w, hrun, hway⟩ :=
    Flow.Tells.run (getRate_reports (s := s) (x := x) (c := c))
  unfold run
  rw [hrun]
  rcases outcome with (e | rate) | message
  · exact hway
  · exact hway
  · exact hway.elim

end Inquiry

namespace Quote

def told? (q : Quote) (pair : Currency × Currency) : Option (Instant × Decimal) :=
  if pair ∈ q.fetched then (usableRate pair.2 q.response).map fun rate => (q.answered, rate) else none

def latest (past : List Quote) (pair : Currency × Currency) : Option (Instant × Decimal) :=
  past.reverse.findSome? fun q => q.told? pair

section

variable {q : Quote} {past : List Quote} {pair : Currency × Currency} {kept : Instant} {rate : Decimal}

theorem latest_append : latest (past ++ [q]) pair = (q.told? pair).or (latest past pair) := by
  rw [latest, List.reverse_append, List.reverse_singleton, List.singleton_append, List.findSome?_cons]
  cases q.told? pair <;> rfl

theorem usableRate_positive {target : Currency} {response : Except RateError RateResponse}
    (h : usableRate target response = some rate) : 0 < rate.value := by
  unfold usableRate at h
  split at h
  · rw [← Decimal.value_zero, ← Decimal.lt_iff_value]
    simpa using (Option.filter_eq_some_iff.mp h).2
  · contradiction

theorem of_told? (h : q.told? pair = some (kept, rate)) : kept = q.answered ∧ 0 < rate.value := by
  unfold told? at h
  split at h
  · obtain ⟨_, hr, he⟩ := Option.map_eq_some_iff.mp h
    cases he
    exact ⟨rfl, usableRate_positive hr⟩
  · contradiction

theorem of_latest (h : latest past pair = some (kept, rate)) :
    (∃ q ∈ past, kept = q.answered) ∧ 0 < rate.value := by
  obtain ⟨q, hq, ht⟩ := List.exists_of_findSome?_eq_some h
  obtain ⟨hk, hp⟩ := of_told? ht
  exact ⟨⟨q, List.mem_reverse.mp hq, hk⟩, hp⟩

end
end Quote

/-- The rate was told last for the pair, less than so many seconds ago. Instants are microseconds. -/
def Inquiry.Live (x : Inquiry) (ttl : Nat) (past : List Quote) (rate : Decimal) : Prop :=
  ∃ kept, Quote.latest past (x.source, x.target) = some (kept, rate) ∧ x.asked - kept < ttl * 1000000

namespace RateCache

theorem lookup_filter_ne {entries : List ((Currency × Currency) × Instant × Decimal)}
    {pair other : Currency × Currency} (h : pair ≠ other) :
    (entries.filter fun e => e.1 != other).lookup pair = entries.lookup pair := by
  induction entries with
  | nil => rfl
  | cons e rest ih =>
    by_cases he : e.1 = other
    · rw [List.filter_cons_of_neg (by simp [he]), ih, List.lookup_cons, beq_false_of_ne (he ▸ h)]
    · rw [List.filter_cons_of_pos (by simpa using he), List.lookup_cons, List.lookup_cons, ih]

theorem lookup_keep (c : RateCache) (source target : Currency) (rate : Decimal) (now : Instant)
    (pair : Currency × Currency) : (c.keep source target rate now).entries.lookup pair =
      if pair = (source, target) then some (now, rate) else c.entries.lookup pair := by
  rw [keep, List.lookup_cons]
  by_cases hp : pair = (source, target)
  · rw [if_pos hp, hp, beq_self_eq_true]
  · rw [if_neg hp, beq_false_of_ne hp, lookup_filter_ne hp]

theorem elapsedSecs_lt {since now : Instant} {ttl : Nat} (h : since ≤ now) :
    elapsedSecs since now < ttl ↔ now - since < ttl * 1000000 := by
  rw [elapsedSecs, Nat.div_lt_iff_lt_mul (by decide), Int.toNat_lt (Int.sub_nonneg_of_le h)]
  rfl

/-- The rates kept are those that the provider told last. -/
def Remembers (c : RateCache) (past : List Quote) : Prop :=
  ∀ pair, c.entries.lookup pair = Quote.latest past pair

section

variable {c c' : RateCache} {past : List Quote} {x : Inquiry} {q : Quote} {rate : Decimal}

/-- A rate that is looked up is one that was told last, and not long ago. -/
theorem Remembers.lookup_iff (hc : c.Remembers past) (ht : ∀ p ∈ past, p.answered ≤ x.asked) :
    c.lookup x.source x.target x.asked = some rate ↔ x.Live c.ttlSecs past rate := by
  unfold lookup Inquiry.Live
  rw [hc]
  cases hl : Quote.latest past (x.source, x.target) with
  | none => simp
  | some entry =>
    obtain ⟨kept, told⟩ := entry
    obtain ⟨⟨p, hp, rfl⟩, -⟩ := Quote.of_latest hl
    constructor
    · intro h
      dsimp only at h
      split at h
      next hlt =>
        cases h
        exact ⟨_, rfl, (elapsedSecs_lt (ht p hp)).mp hlt⟩
      next => contradiction
    · rintro ⟨kept, he, hlt⟩
      cases he
      exact if_pos ((elapsedSecs_lt (ht p hp)).mpr hlt)

theorem Remembers.not_live (hc : c.Remembers past) (ht : ∀ p ∈ past, p.answered ≤ x.asked)
    (miss : c.lookup x.source x.target x.asked = none) : ¬x.Live c.ttlSecs past rate := by
  intro hlive
  rw [(hc.lookup_iff ht).mpr hlive] at miss
  contradiction

end
end RateCache

structure Quote.Faithful (q : Quote) (ttl : Nat) (past : List Quote) : Prop where
  ends : ∃ result, q.outcome = .value result
  same : q.source = q.target → q.outcome = .value (.ok .one) ∧ q.fetched = []
  positive : ∀ rate, q.outcome = .value (.ok rate) → 0 < rate.value
  rate : q.source ≠ q.target → ∀ rate, q.outcome = .value (.ok rate) ↔
    q.told? (q.source, q.target) = some (q.answered, rate) ∨ q.Live ttl past rate
  fetched : q.source ≠ q.target → (q.fetched = [] ∧ ∃ rate, q.Live ttl past rate) ∨
    (q.fetched = [(q.source, q.target)] ∧ ¬∃ rate, q.Live ttl past rate)

namespace Inquiry

section

variable {c c' : RateCache} {past : List Quote} {x : Inquiry} {q : Quote} {rate : Decimal}
  {pair : Currency × Currency}

theorem Way.quoted (h : x.Way c q c') : q.toInquiry = x := by
  cases h <;> rfl

theorem Way.ttlSecs (h : x.Way c q c') : c'.ttlSecs = c.ttlSecs := by
  cases h <;> rfl

/-- What an inquiry leaves of the rates kept. -/
theorem Way.entries (h : x.Way c q c') (pair : Currency × Currency) :
    c'.entries.lookup pair = (q.told? pair).or (c.entries.lookup pair) := by
  cases h with
  | same | kept => simp [Quote.told?]
  | told hne miss usable =>
    rw [RateCache.lookup_keep]
    by_cases hp : pair = (x.source, x.target)
    · subst hp
      simp [Quote.told?, usable]
    · simp [Quote.told?, hp]
  | refused hne miss unusable =>
    by_cases hp : pair = (x.source, x.target)
    · subst hp
      simp [Quote.told?, unusable]
    · simp [Quote.told?, hp]

theorem Way.remembers (h : x.Way c q c') (hc : c.Remembers past) : c'.Remembers (past ++ [q]) := by
  intro pair
  rw [h.entries, hc, Quote.latest_append]

/-- A rate is told just now, or is live. -/
theorem Way.rate_iff (h : x.Way c q c') (hc : c.Remembers past)
    (ht : ∀ p ∈ past, p.answered ≤ x.asked) (hne : q.source ≠ q.target) :
    q.outcome = .value (.ok rate) ↔
      q.told? (q.source, q.target) = some (q.answered, rate) ∨ q.Live c.ttlSecs past rate := by
  cases h with
  | same pair => exact absurd pair hne
  | kept _ hit =>
    constructor
    · rintro ⟨⟩
      exact .inr ((hc.lookup_iff ht).mp hit)
    · rintro (h | h)
      · simp [Quote.told?] at h
      · rw [(hc.lookup_iff ht).mpr h] at hit
        cases hit
        rfl
  | told _ miss usable =>
    constructor
    · rintro ⟨⟩
      exact .inl (by simp [Quote.told?, usable])
    · rintro (h | h)
      · simp only [Quote.told?, List.mem_singleton, if_pos, usable] at h
        cases h
        rfl
      · exact absurd h (hc.not_live ht miss)
  | refused _ miss unusable =>
    constructor
    · rintro ⟨⟩
    · rintro (h | h)
      · simp [Quote.told?, unusable] at h
      · exact absurd h (hc.not_live ht miss)

/-- The provider is asked for the pair if no rate for it is live. -/
theorem Way.fetched (h : x.Way c q c') (hc : c.Remembers past)
    (ht : ∀ p ∈ past, p.answered ≤ x.asked) (hne : q.source ≠ q.target) :
    (q.fetched = [] ∧ ∃ rate, q.Live c.ttlSecs past rate) ∨
      (q.fetched = [(q.source, q.target)] ∧ ¬∃ rate, q.Live c.ttlSecs past rate) := by
  cases h with
  | same pair => exact absurd pair hne
  | kept _ hit => exact .inl ⟨rfl, _, (hc.lookup_iff ht).mp hit⟩
  | told _ miss | refused _ miss => exact .inr ⟨rfl, not_exists.mpr fun _ => hc.not_live ht miss⟩

theorem Way.of_same (h : x.Way c q c') (he : q.source = q.target) :
    q.outcome = .value (.ok .one) ∧ q.fetched = [] := by
  cases h with
  | same => exact ⟨rfl, rfl⟩
  | kept hne | told hne | refused hne => exact absurd he hne

theorem Way.ends (h : x.Way c q c') : ∃ result, q.outcome = .value result := by
  cases h <;> exact ⟨_, rfl⟩

theorem Way.positive (h : x.Way c q c') (hc : c.Remembers past)
    (ht : ∀ p ∈ past, p.answered ≤ x.asked) (ho : q.outcome = .value (.ok rate)) : 0 < rate.value := by
  by_cases he : q.source = q.target
  · rw [(h.of_same he).1] at ho
    cases ho
    norm_num [Decimal.value, Decimal.one, tenTo]
  · rcases (h.rate_iff hc ht he).mp ho with htold | ⟨kept, hlast, -⟩
    · exact (Quote.of_told? htold).2
    · exact (Quote.of_latest hlast).2

theorem Way.faithful (h : x.Way c q c') (hc : c.Remembers past)
    (ht : ∀ p ∈ past, p.answered ≤ x.asked) : q.Faithful c.ttlSecs past where
  ends := h.ends
  same := h.of_same
  positive _ ho := h.positive hc ht ho
  rate hne _ := h.rate_iff hc ht hne
  fetched hne := h.fetched hc ht hne

/-- Without a rate, nothing is kept. -/
theorem Way.unchanged {e : RateError} (h : x.Way c q c') (he : q.outcome = .value (.error e)) :
    c' = c := by
  cases h with
  | refused => rfl
  | same | kept | told => cases he

end
end Inquiry

def quotes (s : Service) : RateCache → List Inquiry → List Quote
  | _, [] => []
  | c, x :: xs => (x.run s c).1 :: quotes s (x.run s c).2 xs

def RateCache.after (s : Service) : RateCache → List Inquiry → RateCache
  | c, [] => c
  | c, x :: xs => RateCache.after s (x.run s c).2 xs

theorem quotes_append (s : Service) (c : RateCache) (xs ys : List Inquiry) :
    quotes s c (xs ++ ys) = quotes s c xs ++ quotes s (c.after s xs) ys := by
  induction xs generalizing c with
  | nil => rfl
  | cons x xs ih => exact congrArg _ (ih _)

/-- Every quote belongs to its inquiry. -/
theorem quotes_inquiries (s : Service) (c : RateCache) (xs : List Inquiry) :
    (quotes s c xs).map (·.toInquiry) = xs := by
  induction xs generalizing c with
  | nil => rfl
  | cons x xs ih => exact congrArg₂ _ (x.way s c).quoted (ih _)

namespace RateCache

theorem after_ttlSecs (s : Service) (c : RateCache) (xs : List Inquiry) :
    (c.after s xs).ttlSecs = c.ttlSecs := by
  induction xs generalizing c with
  | nil => rfl
  | cons x xs ih => exact (ih _).trans (x.way s c).ttlSecs

theorem Remembers.after {c : RateCache} {past : List Quote} (hc : c.Remembers past) (s : Service)
    (xs : List Inquiry) : (c.after s xs).Remembers (past ++ quotes s c xs) := by
  induction xs generalizing c past with
  | nil =>
    rw [quotes, List.append_nil]
    exact hc
  | cons x xs ih =>
    rw [quotes, List.append_cons]
    exact ih ((x.way s c).remembers hc)

end RateCache

def Timely (xs : List Inquiry) : Prop := xs.Pairwise fun x y => x.answered ≤ y.asked

/-- Of inquiries one after the other: each rate is the one that the provider told last for the ordered
pair, just now or less than the lifetime ago, and the provider is asked only if there is no such rate. An
inquiry that ends in an error leaves the later ones as they were without it. -/
theorem quotes_faithful (s : Service) (ttl : Nat) {before after : List Inquiry} {x : Inquiry}
    (ht : Timely (before ++ x :: after)) : ∃ (q : Quote) (later : List Quote),
      quotes s ⟨ttl, []⟩ (before ++ x :: after) = quotes s ⟨ttl, []⟩ before ++ q :: later ∧
      q.toInquiry = x ∧ q.Faithful ttl (quotes s ⟨ttl, []⟩ before) ∧
      ((∃ e, q.outcome = .value (.error e)) →
        quotes s ⟨ttl, []⟩ (before ++ after) = quotes s ⟨ttl, []⟩ before ++ later) := by
  have hway := x.way s (RateCache.after s ⟨ttl, []⟩ before)
  have hempty : RateCache.Remembers ⟨ttl, []⟩ [] := fun _ => rfl
  have hearlier : ∀ p ∈ quotes s ⟨ttl, []⟩ before, p.answered ≤ x.asked := by
    intro p hp
    have hmem : p.toInquiry ∈ before := by
      rw [← quotes_inquiries s ⟨ttl, []⟩ before]
      exact List.mem_map_of_mem hp
    exact (List.pairwise_append.mp ht).2.2 _ hmem x List.mem_cons_self
  refine ⟨_, _, quotes_append s ⟨ttl, []⟩ before (x :: after), hway.quoted, ?_, ?_⟩
  · have hfaithful := hway.faithful (hempty.after s before) hearlier
    rwa [RateCache.after_ttlSecs] at hfaithful
  · rintro ⟨e, he⟩
    rw [quotes_append, hway.unchanged he]

def dollarsInEuros (asked : Instant) (rate : Decimal) : Inquiry :=
  ⟨.usd, .eur, asked, .ok ⟨"USD", [("EUR", rate)]⟩, asked + 5⟩

def eurosInDollars : Inquiry := ⟨.eur, .usd, 10, .error (.unavailable "down"), 20⟩

/-- A rate told at instant 5 lives for a second: it is live at 1000000, and not at 1000005. The inquiry in
between that fails makes no difference. -/
theorem quotes_faithful_expiringRate :
    Timely ([dollarsInEuros 0 forty] ++ eurosInDollars ::
      [dollarsInEuros 1000000 hundred, dollarsInEuros 1000005 hundred]) ∧
    ∃ later : List Quote,
      quotes plainService ⟨1, []⟩ ([dollarsInEuros 0 forty] ++
        [dollarsInEuros 1000000 hundred, dollarsInEuros 1000005 hundred]) =
        quotes plainService ⟨1, []⟩ [dollarsInEuros 0 forty] ++ later ∧
      later.map (fun q => (q.outcome, q.fetched)) =
        [(.value (.ok forty), []), (.value (.ok hundred), [(.usd, .eur)])] := by
  have ht : Timely ([dollarsInEuros 0 forty] ++ eurosInDollars ::
      [dollarsInEuros 1000000 hundred, dollarsInEuros 1000005 hundred]) := by
    simp [Timely, dollarsInEuros, eurosInDollars]
  obtain ⟨q, later, hall, hq, hfaithful, herror⟩ := quotes_faithful plainService 1 ht
  have hcomputed : (quotes plainService ⟨1, []⟩ ([dollarsInEuros 0 forty] ++ eurosInDollars ::
      [dollarsInEuros 1000000 hundred, dollarsInEuros 1000005 hundred])).map
        (fun q => (q.outcome, q.fetched)) =
      [(.value (.ok forty), [(.usd, .eur)]),
        (.value (.error (.unavailable "down")), [(.eur, .usd)]),
        (.value (.ok forty), []), (.value (.ok hundred), [(.usd, .eur)])] := by
    decide +kernel
  rw [hall, List.map_append, List.map_cons] at hcomputed
  have hfirst : (quotes plainService ⟨1, []⟩ [dollarsInEuros 0 forty]).map
      (fun q => (q.outcome, q.fetched)) = [(.value (.ok forty), [(.usd, .eur)])] := by
    decide +kernel
  rw [hfirst] at hcomputed
  obtain ⟨hfailed, hlater⟩ := List.cons.inj (List.cons.inj hcomputed).2
  exact ⟨ht, later, herror ⟨_, congrArg Prod.fst hfailed⟩, hlater⟩

end Settlement
