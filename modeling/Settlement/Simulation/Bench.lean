import Settlement.Memory.Book
import Settlement.Memory.Categories
import Settlement.Memory.Limits
import Settlement.Memory.RateCache
import Settlement.Memory.Transactions
import Settlement.Simulation.Fault

/-!
The surroundings of a simulated service: stores in memory, a provider with scripted answers, a clock
that only counts, and a script of faults. A call of the service becomes a few acts here: it takes its
fault, does what the fault leaves of it, and is noted in the trace.
-/

namespace Settlement
namespace Simulation

/-- The answers of the rate provider. A pair without one has no rates; a failure counts for all. -/
structure Provider where
  answers : List ((Currency × Currency) × RateResponse) := []
  failure : Option String := none

namespace Provider

def set (p : Provider) (source target : Currency) (response : RateResponse) : Provider :=
  { p with answers := ((source, target), response) :: p.answers }

def answer (p : Provider) (source target : Currency) : Except RateError RateResponse :=
  match p.failure with
  | some text => .error (.unavailable text)
  | none => .ok ((p.answers.lookup (source, target)).getD ⟨source.code, []⟩)

end Provider

structure Bench where
  book : Book := {}
  transactions : TransactionTable := {}
  limits : LimitTable := {}
  categories : CategoryTable := .defaults
  cache : RateCache := ⟨1800, []⟩
  provider : Provider := {}
  script : Script := []
  /-- How long a call waits for a held account. -/
  lockTimeoutMs : Nat := 2000
  /-- Milliseconds that waiting has taken so far. -/
  elapsed : Nat := 0
  /-- How often the clock of the records was read; each reading is later than the one before. -/
  readings : Nat := 0
  trace : List String := []

namespace Bench

/-- The first reading of the clock. Waiting does not move it. -/
def clockStart : Instant := 800000000000000

def now (b : Bench) : Instant × Bench :=
  (clockStart + b.readings, { b with readings := b.readings + 1 })

def note (b : Bench) (line : String) : Bench := { b with trace := b.trace ++ [line] }

def rates : (call : RateCall) → Bench → Flow.Outcome call.Answer × Bench
  | .lookup source target, b =>
    let (now, b) := b.now
    (.value (b.cache.lookup source target now), b)
  | .fetch source target, b =>
    (.value (b.provider.answer source target),
      b.note ("rate " ++ source.code ++ " " ++ target.code))
  | .keep source target rate, b =>
    let (now, b) := b.now
    (.value (), { b with cache := b.cache.keep source target rate now })

/-- Makes a call at once: one that would have to wait for an account finds it held. -/
def call : (call : Call) → Bench → Flow.Outcome call.Answer × Bench
  | .ledger c, b =>
    let (answer, book) := Book.answer c b.book
    (answer, { b with book })
  | .store c, b =>
    let (now, b) := b.now
    let (answer, transactions) := TransactionTable.answer now c b.transactions
    (answer, { b with transactions })
  | .limits c, b =>
    let (answer, limits) := LimitTable.answer c b.limits
    (answer, { b with limits })
  | .categories c, b =>
    let (answer, categories) := CategoryTable.answer c b.categories
    (answer, { b with categories })
  | .rates c, b => rates c b
  | .now, b =>
    let (now, b) := b.now
    (.value now, b)
  | .pause _, b => (.value (), b)

def isBlocked (b : Bench) (call : LedgerCall) : Bool :=
  match b.book.wants call with
  | some account => b.book.held.contains account
  | none => false

end Bench

inductive Act where
  | call (call : Call)
  /-- Takes the fault for a call out of its queue. -/
  | fault (call : Call)
  | trace (line : String)

abbrev Act.Answer : Act → Type
  | call c => c.Answer
  | fault _ => Fault
  | trace _ => Unit

namespace Act

def atOnce : (act : Act) → Bench → Flow.Outcome act.Answer × Bench
  | .call c, b => b.call c
  | .fault (.ledger c), b =>
    let (found, script) := b.script.nextLedger c
    (.value found, { b with script })
  | .fault c, b =>
    let (found, script) := b.script.next (method c)
    (.value found, { b with script })
  | .trace line, b => (.value (), b.note line)

end Act

def made (call : Call) : Flow Act Act.Answer call.Answer := Flow.query (Act.call call)

def traceLine (direction : Direction) (account : AccountId) (amount : Decimal)
    (operation : OperationId) (answer : Except LedgerError MutationOutcome) : String :=
  let verb := match direction with
    | .debit => "debit "
    | .credit => "credit "
  let outcome := match answer with
    | .ok outcome => outcome.name
    | .error e => e.code
  verb ++ Digits.intText account ++ " " ++ amount.text ++ " op=" ++ operation.text ++ " " ++ outcome

def ledgerCall (fault : Fault) : (call : LedgerCall) → Flow Act Act.Answer call.Answer
  | .getAccount account =>
    match fault with
    | .ledger e => .done (.error e)
    | _ => made (.ledger (.getAccount account))
  | .mutate direction account amount operation => do
    let itself := made (.ledger (.mutate direction account amount operation))
    let answer ← match fault with
      | .ledger e => .done (.error e)
      | .ledgerAfter e => do
        let _ ← itself
        .done (.error e)
      | .finalizeFirst id fin => do
        let _ ← made (.store (.finalize id fin))
        itself
      | _ => itself
    Flow.query (Act.trace (traceLine direction account amount operation answer))
    return answer

def scripted : (call : Call) → Flow Act Act.Answer call.Answer
  | .ledger c => do ledgerCall (← Flow.query (Act.fault (.ledger c))) c
  | .store c => do
    match (← Flow.query (Act.fault (.store c))).storeAnswer c with
    | some answer => return answer
    | none => made (.store c)
  | .limits c => do
    match (← Flow.query (Act.fault (.limits c))).limitAnswer c with
    | some answer => return answer
    | none => made (.limits c)
  | .categories c => do
    match (← Flow.query (Act.fault (.categories c))).categoryAnswer c with
    | some answer => return answer
    | none => made (.categories c)
  | .rates c => made (.rates c)
  | .now => made .now
  | .pause milliseconds => made (.pause milliseconds)

end Simulation
end Settlement
