import Settlement.Service.Call

/-!
Exchange rates kept per ordered pair. A rate is fresh while fewer than `ttlSecs` whole seconds have
passed since it was kept.
-/

namespace Settlement

structure RateCache where
  ttlSecs : Nat
  entries : List ((Currency × Currency) × Instant × Decimal) := []

namespace RateCache

def elapsedSecs (since now : Instant) : Nat := (now - since).toNat / 1000000

def lookup (c : RateCache) (source target : Currency) (now : Instant) : Option Decimal :=
  match c.entries.lookup (source, target) with
  | some (kept, rate) => if elapsedSecs kept now < c.ttlSecs then some rate else none
  | none => none

def keep (c : RateCache) (source target : Currency) (rate : Decimal) (now : Instant) : RateCache :=
  { c with entries :=
      ((source, target), now, rate) :: c.entries.filter fun e => e.1 != (source, target) }

end RateCache
end Settlement
