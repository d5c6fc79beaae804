import Settlement.Service.Drive

/-!
The recovery sweep: finds the records that nobody has touched for a while, oldest first, and recovers
each of them once.
-/

namespace Settlement

structure SweepReport where
  found : Nat := 0
  completed : Nat := 0
  failed : Nat := 0
  deferred : Nat := 0
  skipped : Nat := 0
  errors : Nat := 0
deriving DecidableEq, Repr

namespace SweepReport

def count (r : SweepReport) : Service.RecoveryOutcome → SweepReport
  | .completed => { r with completed := r.completed + 1 }
  | .failed => { r with failed := r.failed + 1 }
  | .deferred => { r with deferred := r.deferred + 1 }
  | .skipped => { r with skipped := r.skipped + 1 }

end SweepReport

namespace Service

open Program Fallible

/-- The instant that lies a timeout back. A timeout beyond 64 bits of milliseconds is an error, one
that leaves the calendar breaks off. -/
def cutoff (timeoutSecs : Nat) : Program ServiceError Instant := do
  if maxInt64 < timeoutSecs * 1000 then
    throw (.internal
      "Invalid processing timeout: Source duration value is out of range for the target type")
  let instant := (← now) - timeoutSecs * 1000000
  if instant < Instant.first then breakOff "`DateTime - TimeDelta` overflowed"
  else return instant

def recoverAll (s : Service) : List TransactionRecord → SweepReport →
    Program ServiceError SweepReport
  | [], report => return report
  | tx :: rest, report => do
    log .debug Log.Target.sweep "Recovering transaction"
      [("tx_id", .int tx.id), ("step", .shown tx.step.name), ("attempts", .int tx.attempts)]
    match ← attempt (recover s tx.id) with
    | .ok outcome => recoverAll s rest (report.count outcome)
    | .error e =>
      log .error Log.Target.sweep "Failed to recover transaction"
        [("tx_id", .int tx.id), ("error", .shown e.message)]
      recoverAll s rest { report with errors := report.errors + 1 }

/-- Selects the records that were last touched before the cutoff, and recovers them. -/
def sweepSince (s : Service) (settings : SweepSettings) (cutoff : Instant) :
    Program ServiceError SweepReport := do
  let stuck ← findStuck cutoff settings.batchSize
  if stuck = [] then
    log .debug Log.Target.sweep "No stuck transactions found" []
    return {}
  log .info Log.Target.sweep "Found stuck transactions to recover" [("count", .int stuck.length)]
  let report ← recoverAll s stuck { found := stuck.length }
  log .info Log.Target.sweep "Recovery scan finished"
    [("completed", .int report.completed), ("failed", .int report.failed),
      ("deferred", .int report.deferred)]
  return report

def sweep (s : Service) (settings : SweepSettings) : Program ServiceError SweepReport := do
  sweepSince s settings (← cutoff settings.processingTimeoutSecs)

end Service
end Settlement
