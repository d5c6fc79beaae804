import Settlement.Settings
import Settlement.Yaml.Reader

/-!
Settings from YAML text. A section may be missing, but one that is there has all its entries.
-/

namespace Settlement
namespace Config

def decimal? (v : Yaml) : Option Decimal := do
  match ← v.toJson? with
  | .text (some s) => Decimal.read? s
  | .number (.natural n) => Decimal.of? n 0
  | .number (.negative n) => Decimal.of? (-(n : Int)) 0
  | .number (.binary minus x) => Decimal.readPlain (if minus then '-' :: x.chars else x.chars)
  | _ => none

def nat32? (v : Yaml) : Option Nat := v.toNatUpTo? maxNat32

def nat64? (v : Yaml) : Option Nat := v.toNatUpTo? maxNat64

def section? (default : α) (read : Yaml → Option α) : Option Yaml → Option α
  | none => some default
  | some v => read v

def retry? (v : Yaml) : Option RetrySettings := do
  match ← v.entries? ["max_attempts", "retry_backoff_ms", "history_page_size_max"] with
  | [some attempts, some backoff, some pageMax] =>
    some ⟨← nat32? attempts, ← nat64? backoff, ← nat32? pageMax⟩
  | _ => none

def recovery? (v : Yaml) : Option RecoverySettings := do
  match ← v.entries? ["scan_interval_secs", "processing_timeout_secs", "batch_size"] with
  | [some interval, some timeout, some batch] =>
    some ⟨← nat64? interval, ← nat64? timeout, ← nat64? batch⟩
  | _ => none

def rates? (v : Yaml) : Option RateSettings := do
  match ← v.entries? ["base_url", "ttl_secs", "request_timeout_ms"] with
  | [some url, some ttl, some timeout] =>
    some ⟨← url.toString?, ← nat64? ttl, ← nat64? timeout⟩
  | _ => none

def limits? (v : Yaml) : Option LimitSettings := do
  match ← v.entries? ["default_daily", "default_single"] with
  | [some daily, some single] => some ⟨← decimal? daily, ← decimal? single⟩
  | _ => none

def ledger? (v : Yaml) : Option LedgerSettings := do
  match ← v.entries? ["lock_timeout_ms"] with
  | [some timeout] => some ⟨← nat64? timeout⟩
  | _ => none

def settings? (v : Yaml) : Option Settings := do
  match ← v.entries? ["log_level", "log_dir", "log_file", "use_json", "rotation", "postgres_url",
      "ledger_postgres_url", "saga", "recovery", "rates", "limits", "ledger"] with
  | [some level, some dir, some file, some json, some rotation, some url, ledgerUrl, retry,
      recovery, rates, limits, ledger] =>
    some {
      logLevel := ← level.toString?
      logDir := ← dir.toString?
      logFile := ← file.toString?
      useJson := ← json.toBool?
      rotation := ← rotation.toString?
      postgresUrl := ← url.toString?
      ledgerPostgresUrl := ← Yaml.toOptionalString? ledgerUrl
      retry := ← section? {} retry? retry
      recovery := ← section? {} recovery? recovery
      rates := ← section? {} rates? rates
      limits := ← section? {} limits? limits
      ledger := ← section? {} ledger? ledger }
  | _ => none

def read? (s : String) : Option Settings := (Yaml.ofText? s).bind settings?

inductive LoadError where
  | unreadable (path : String)
  | unparsable (path : String)
deriving DecidableEq

def LoadError.message : LoadError → String
  | unreadable path => "Failed to read config file " ++ path
  | unparsable path => "Failed to parse config " ++ path

def path (env : String) : String := "config/" ++ env ++ ".yaml"

/-- The settings of an environment; `file` answers the text of a path, if there is one. -/
def load (file : String → Option String) (env : String) : Except LoadError Settings :=
  match file (path env) with
  | none => .error (.unreadable (path env))
  | some text =>
    match read? text with
    | none => .error (.unparsable (path env))
    | some settings => .ok settings

def json (s : Settings) : Json :=
  .record [
    ("log_level", .str s.logLevel), ("log_dir", .str s.logDir), ("log_file", .str s.logFile),
    ("use_json", .bool s.useJson), ("rotation", .str s.rotation),
    ("postgres_url", .str s.postgresUrl),
    ("ledger_postgres_url", .ofOption .str s.ledgerPostgresUrl),
    ("saga", .record [("max_attempts", .ofNat s.retry.maxAttempts),
      ("retry_backoff_ms", .ofNat s.retry.backoffMs),
      ("history_page_size_max", .ofNat s.retry.pageSizeMax)]),
    ("recovery", .record [("scan_interval_secs", .ofNat s.recovery.scanIntervalSecs),
      ("processing_timeout_secs", .ofNat s.recovery.processingTimeoutSecs),
      ("batch_size", .ofNat s.recovery.batchSize)]),
    ("rates", .record [("base_url", .str s.rates.baseUrl), ("ttl_secs", .ofNat s.rates.ttlSecs),
      ("request_timeout_ms", .ofNat s.rates.requestTimeoutMs)]),
    ("limits", .record [("default_daily", .ofDecimal s.limits.daily),
      ("default_single", .ofDecimal s.limits.single)]),
    ("ledger", .record [("lock_timeout_ms", .ofNat s.ledger.lockTimeoutMs)])]

end Config
end Settlement
