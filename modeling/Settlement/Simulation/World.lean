import Settlement.Service.Requests
import Settlement.Simulation.Worker

/-!
A simulated world: a service over its bench, and perhaps a worker beside it. Programs run one after
the other; the worker runs only while one of them waits, and only before that wait ends.
-/

namespace Settlement
namespace Simulation

structure World where
  service : Service
  bench : Bench
  worker : Option Worker := none

namespace World

def runWorker (limit : Nat) : (fuel : Nat) → World → World
  | 0, w => w
  | fuel + 1, w =>
    match w.worker with
    | none => w
    | some worker =>
      match worker.wake? w.bench with
      | none => w
      | some wake =>
        let time := max wake w.bench.elapsed
        if time < limit then
          let (worker, bench) := worker.step w.service { w.bench with elapsed := time }
          runWorker limit fuel { w with worker := some worker, bench }
        else w

/-- Lets time pass. In every two turns of the worker at least a millisecond goes by, once it has
caught up with the ticks it missed. -/
def pass (milliseconds : Nat) (w : World) : World :=
  let limit := w.bench.elapsed + milliseconds
  let w := w.runWorker limit (2 * (limit + 1))
  { w with bench := { w.bench with elapsed := max limit w.bench.elapsed } }

def await (call : LedgerCall) (w : World) : World :=
  if w.bench.isBlocked call then w.pass w.bench.lockTimeoutMs
  else
    match w.worker with
    | some worker =>
      if worker.awaits w.bench call then w.runWorker (w.bench.elapsed + 1) 1 else w
    | none => w

def act : (act : Act) → World → Flow.Outcome act.Answer × World
  | .call (.pause milliseconds), w => (.value (), w.pass milliseconds)
  | .call (.ledger c), w =>
    let w := w.await c
    let (answer, bench) := w.bench.call (.ledger c)
    (answer, { w with bench })
  | a, w =>
    let (answer, bench) := a.atOnce w.bench
    (answer, { w with bench })

def run (p : Program ε α) (w : World) : Flow.Outcome (Except ε α) × List Log.Event × World :=
  (p.run.through scripted).run act w

def direct (call : Call) (w : World) : Flow.Outcome call.Answer × World := w.act (.call call)

def closeAccount (account : AccountId) (w : World) : Except LedgerError Unit × World :=
  let w := w.await (.getAccount account)
  let (answer, book) := w.bench.book.closeAccount account
  (answer, { w with bench := { w.bench with book } })

def hold (account : AccountId) (w : World) : Bool × World :=
  if (w.bench.book.account? account).isSome then
    let w := w.await (.getAccount account)
    let book := { w.bench.book with held := account :: w.bench.book.held }
    (true, { w with bench := { w.bench with book } })
  else (false, w)

def isHeld (account : AccountId) (w : World) : Bool := w.bench.book.held.contains account

def release (account : AccountId) (w : World) : Bool × World :=
  let held := w.bench.book.held.filter (· != account)
  let book := { w.bench.book with held }
  (w.isHeld account, { w with bench := { w.bench with book } })

def spawn (settings : SweepSettings) (w : World) : Option World :=
  match w.worker with
  | some _ => none
  | none => some { w with worker := some { settings } }

def finishSweep : (fuel : Nat) → World → World
  | 0, w => w
  | fuel + 1, w =>
    match w.worker with
    | none => w
    | some worker =>
      if worker.isSweeping then
        let time := max ((worker.wake? w.bench).getD 0) w.bench.elapsed
        let (worker, bench) := worker.step w.service { w.bench with elapsed := time }
        finishSweep fuel { w with worker := some worker, bench }
      else w

/-- The waits that are left in a sweep: at most two for each account that a record has. -/
def sweepWaits (w : World) : Nat := 4 * w.bench.transactions.rows.length + 4

def shutdown (w : World) : Option World :=
  match w.worker with
  | none => none
  | some _ => some { w.finishSweep w.sweepWaits with worker := none }

end World
end Simulation
end Settlement
