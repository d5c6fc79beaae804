import Settlement.Service.Sweep
import Settlement.Simulation.Bench

/-!
A simulated sweep worker. It sweeps at its first chance to run and then once per interval; a sweep
that has to wait is suspended, and goes on when its time has come or its account is free.
-/

namespace Settlement
namespace Simulation

inductive Suspended (α : Type) where
  | finished (outcome : Flow.Outcome α)
  | sleeping (milliseconds : Nat) (rest : Flow Act Act.Answer α)
  | blocked (call : LedgerCall) (next : call.Answer → Flow Act Act.Answer α)

def untilWait : Flow Act Act.Answer α → Bench → Suspended α × Bench
  | .done a, b => (.finished (.value a), b)
  | .panic message, b => (.finished (.panic message), b)
  | .note _ rest, b => untilWait rest b
  | .ask (.call (.pause milliseconds)) next, b =>
    if milliseconds = 0 then untilWait (next ()) b else (.sleeping milliseconds (next ()), b)
  | .ask (.call (.ledger c)) next, b =>
    if b.isBlocked c then (.blocked c next, b)
    else
      match b.call (.ledger c) with
      | (.value a, b) => untilWait (next a) b
      | (.panic message, b) => (.finished (.panic message), b)
  | .ask act next, b =>
    match act.atOnce b with
    | (.value a, b) => untilWait (next a) b
    | (.panic message, b) => (.finished (.panic message), b)

/-- What a worker is doing. Times are in milliseconds; `tick` is when its next sweep is due. -/
inductive WorkerState where
  /-- Has not run yet. -/
  | fresh
  | idle (tick : Nat)
  | sleeping (wake tick : Nat) (rest : Flow Act Act.Answer (Except ServiceError SweepReport))
  | blocked (wake tick : Nat) (call : LedgerCall)
      (next : call.Answer → Flow Act Act.Answer (Except ServiceError SweepReport))
  /-- Broke off. -/
  | ended

structure Worker where
  settings : SweepSettings
  state : WorkerState := .fresh

namespace Worker

def wake? (w : Worker) (b : Bench) : Option Nat :=
  match w.state with
  | .fresh => some b.elapsed
  | .idle tick => some tick
  | .sleeping wake _ _ => some wake
  | .blocked wake _ call _ => some (if b.isBlocked call then wake else b.elapsed)
  | .ended => none

def isSweeping (w : Worker) : Bool :=
  match w.state with
  | .sleeping .. | .blocked .. => true
  | _ => false

def awaits (w : Worker) (b : Bench) (call : LedgerCall) : Bool :=
  match w.state with
  | .blocked _ _ own _ => b.book.wants own == b.book.wants call
  | _ => false

/-- The tick after one that was due at `tick` and is served now. A late one moves those behind it. -/
def nextTick (w : Worker) (tick now : Nat) : Nat :=
  if tick + 5 < now then now + w.settings.scanIntervalMs else tick + w.settings.scanIntervalMs

def settle (w : Worker) (tick : Nat) :
    Suspended (Except ServiceError SweepReport) × Bench → Worker × Bench
  | (.finished (.value _), b) => ({ w with state := .idle tick }, b)
  | (.finished (.panic _), b) => ({ w with state := .ended }, b)
  | (.sleeping milliseconds rest, b) =>
    ({ w with state := .sleeping (b.elapsed + milliseconds) tick rest }, b)
  | (.blocked call next, b) =>
    ({ w with state := .blocked (b.elapsed + b.lockTimeoutMs) tick call next }, b)

def start (w : Worker) (s : Service) (tick : Nat) (b : Bench) : Worker × Bench :=
  w.settle (w.nextTick tick b.elapsed) (untilWait ((s.sweep w.settings).run.through scripted) b)

def step (w : Worker) (s : Service) (b : Bench) : Worker × Bench :=
  match w.state with
  | .fresh =>
    if w.settings.scanIntervalMs = 0 then ({ w with state := .ended }, b) else w.start s b.elapsed b
  | .idle tick => w.start s tick b
  | .sleeping _ tick rest => w.settle tick (untilWait rest b)
  | .blocked _ tick call next =>
    match b.call (.ledger call) with
    | (.value a, b) => w.settle tick (untilWait (next a) b)
    | (.panic _, b) => ({ w with state := .ended }, b)
  | .ended => (w, b)

end Worker
end Simulation
end Settlement
