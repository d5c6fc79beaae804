import Settlement.Config.Reader
import Settlement.Log.Output
import Settlement.Service.Sweep
import Settlement.Sql.Backend
import Settlement.Sql.Schema
import Settlement.Sql.Script

/-!
The daemon: it connects the service to its databases, sets these up, and sweeps until it is told to
stop.
-/

namespace Settlement
namespace Daemon

open Fallible

def environment : List String → String
  | option :: name :: rest =>
    if option = "--env" ∨ option = "-e" then name else environment (name :: rest)
  | _ => "dev"

inductive Failure where
  | settings (e : Config.LoadError)
  | schema (text : String)
  | database (occasion : String) (e : Sql.SqlError)
deriving DecidableEq

namespace Failure

/-- The lines of a text, the ones behind the first moved in by `width` blanks. -/
def indented (lead : String) (width : Nat) (text : String) : List String :=
  match text.splitOn "\n" with
  | [] => [lead]
  | first :: rest =>
    (lead ++ first) :: rest.map (String.ofList (List.replicate width ' ') ++ ·)

def causeLines : List String → List String
  | [] => []
  | [cause] => indented "    " 4 cause
  | causes =>
    (causes.zipIdx.map fun (cause, i) =>
      indented ("    " ++ Digits.natText i ++ ": ") 7 cause).flatten

def lines : Failure → List String
  | settings e => ("Error: " ++ e.message).splitOn "\n"
  | schema text => ("Error: " ++ text).splitOn "\n"
  | database occasion e =>
    ["Error: " ++ occasion, "", "Caused by:"] ++ causeLines (e.message :: e.causes)

end Failure

def note (message : String) (fields : List (String × Log.FieldValue)) : Sql.Session ε Unit :=
  log .info Log.Target.daemon message fields

def on (occasion : String) (p : Sql.Session Sql.SqlError α) : Sql.Session Failure α :=
  p.mapError (.database occasion)

def start (s : Settings) (env revision : String) : Sql.Session Failure Unit := do
  note "Starting transaction saga service" [("env", .shown env), ("git_hash", .shown revision)]
  on "Failed to connect to transaction database" (Sql.Session.connect s.postgresUrl)
  Sql.Schema.initService.mapError .schema
  on "Failed to connect to ledger database" (Sql.Session.connect s.ledgerUrl)
  on "Ledger database health check failed" Sql.Schema.ping
  Sql.Schema.initLedger.mapError .schema
  note "Service ready, press Ctrl+C to shutdown" []

def service (s : Settings) : Service := ⟨Sql.Ledger.name, "frankfurter", s.retry, s.limits⟩

def sweepOnce (s : Settings) : Sql.Session Empty Unit := do
  let sweep := s.recovery.sweep
  log .info Log.Target.sweep "Starting recovery worker"
    [("scan_interval_secs", .int (sweep.scanIntervalMs / 1000 : Nat)),
      ("processing_timeout_secs", .int sweep.processingTimeoutSecs)]
  match ← attempt (Sql.session s.ledger.lockTimeoutMs ((service s).sweep sweep)) with
  | .ok _ => return ()
  | .error e =>
    log .error Log.Target.sweep "Recovery scan failed" [("error", .shown e.message)]

structure Report where
  code : Nat
  /-- The lines of its complaints. -/
  errors : List String
  events : List Log.Event
  script : Sql.Script

/-- What is logged between the order to stop and the end; a worker that broke off is a remark. -/
def farewell (workerRan : Flow.Outcome α) : List Log.Event :=
  let last : Log.Event := match workerRan with
    | .value _ => ⟨.info, Log.Target.sweep, "Recovery worker stopped", []⟩
    | .panic message =>
      ⟨.error, Log.Target.sweep, "Recovery worker task panicked", [("error", .shown message)]⟩
  [⟨.info, Log.Target.daemon, "Shutdown signal received", []⟩, last]

def serve (s : Settings) (env revision : String) (script : Sql.Script) : Report :=
  match script.run (start s env revision).run with
  | (.panic message, events, script) => ⟨101, [message], events, script⟩
  | (.value (.error failure), events, script) => ⟨1, failure.lines, events, script⟩
  | (.value (.ok ()), events, script) =>
    let (ran, more, script) := script.run (sweepOnce s).run
    ⟨0, [], events ++ more ++ farewell ran, script⟩

/-- What the daemon is started with: its arguments, the texts of files, a filter of log lines from
outside, and the revision it was built from. -/
structure Setting where
  args : List String
  file : String → Option String
  filter : Option String := none
  revision : String

structure Output where
  code : Nat
  visible : List Json := []
  errors : List String
  /-- The directory and the name of the log file, and its lines. -/
  logFile : Option (String × String × List Json) := none
  sent : List Sql.Sent := []

def run (setting : Setting) (script : Sql.Script) : Output :=
  let env := environment setting.args
  match Config.load setting.file env with
  | .error e => { code := 1, errors := (Failure.settings e).lines }
  | .ok s =>
    let report := serve s env setting.revision script
    let filter := Log.Filter.choose setting.filter s.logLevel
    { code := report.code
      visible := Log.visible filter s.useJson report.events
      errors := Log.Filter.remarks setting.filter s.logLevel ++ report.errors
      logFile := some (s.logDir, (Log.Rotation.ofName s.rotation).fileName s.logFile,
        Log.lines filter s.useJson report.events)
      sent := report.script.sent }

end Daemon
end Settlement
