import Settlement.Decimal.Text

/-!
The settings of the service and their defaults.
-/

namespace Settlement

structure RetrySettings where
  maxAttempts : Nat := 3
  /-- The pause after attempt `n` is `n` times as long. -/
  backoffMs : Nat := 100
  pageSizeMax : Nat := 100
deriving DecidableEq

/-- Milliseconds to wait after an attempt, at most what 64 bits hold. -/
def RetrySettings.backoff (s : RetrySettings) (attempt : Nat) : Nat :=
  min (s.backoffMs * attempt) maxNat64

structure RecoverySettings where
  scanIntervalSecs : Nat := 300
  /-- Records untouched for longer count as abandoned. -/
  processingTimeoutSecs : Nat := 300
  batchSize : Nat := 100
deriving DecidableEq

structure RateSettings where
  baseUrl : String := "https://api.frankfurter.app"
  ttlSecs : Nat := 1800
  requestTimeoutMs : Nat := 5000
deriving DecidableEq

structure LimitSettings where
  daily : Decimal := .ofInt64 5000
  single : Decimal := .ofInt64 1000
deriving DecidableEq

structure LedgerSettings where
  /-- How long to wait for an account before reporting a conflict. -/
  lockTimeoutMs : Nat := 2000
deriving DecidableEq

structure Settings where
  logLevel : String
  logDir : String
  logFile : String
  useJson : Bool
  rotation : String
  postgresUrl : String
  /-- The ledger's own database; none means the one of the transactions. -/
  ledgerPostgresUrl : Option String := none
  retry : RetrySettings := {}
  recovery : RecoverySettings := {}
  rates : RateSettings := {}
  limits : LimitSettings := {}
  ledger : LedgerSettings := {}
deriving DecidableEq

def Settings.ledgerUrl (s : Settings) : String := s.ledgerPostgresUrl.getD s.postgresUrl

structure SweepSettings where
  scanIntervalMs : Nat
  processingTimeoutSecs : Nat
  batchSize : Nat
deriving DecidableEq

/-- The interval is at least a second. -/
def RecoverySettings.sweep (s : RecoverySettings) : SweepSettings :=
  ⟨max s.scanIntervalSecs 1 * 1000, s.processingTimeoutSecs, s.batchSize⟩

end Settlement
