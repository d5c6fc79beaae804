import Settlement.Service.Call

/-!
A transaction store in memory: rows by id, from 1, and an index of their keys. Every write is
conditional: a terminal row never changes and a step never goes back.
-/

namespace Settlement

structure TransactionTable where
  rows : List TransactionRecord := []
  keys : List (String × TransactionId) := []
deriving DecidableEq

namespace TransactionTable

def row? (t : TransactionTable) (id : TransactionId) : Option TransactionRecord :=
  t.rows.find? (·.id == id)

def rowByKey? (t : TransactionTable) (key : String) : Option TransactionRecord :=
  (t.keys.lookup key).bind t.row?

def fresh (new : NewTransaction) (id : TransactionId) (now : Instant) : TransactionRecord :=
  { new with
    id, status := .created, step := .none, compensation := .none, attempts := 0,
    errorMessage := none, createdAt := now, updatedAt := now }

def insert (t : TransactionTable) (new : NewTransaction) (now : Instant) :
    InsertOutcome × TransactionTable :=
  if (t.keys.lookup new.key).isSome then (.duplicateKey, t)
  else
    let id : TransactionId := t.rows.length + 1
    let row := fresh new id now
    (.inserted row, ⟨t.rows ++ [row], t.keys ++ [(new.key, id)]⟩)

/-- Writes the row of an id if it meets the condition, and tells whether it did. -/
def update (t : TransactionTable) (id : TransactionId) (condition : TransactionRecord → Bool)
    (write : TransactionRecord → TransactionRecord) : Bool × TransactionTable :=
  match t.row? id with
  | none => (false, t)
  | some row =>
    if condition row then
      (true, { t with rows := t.rows.map fun r => if r.id = id then write r else r })
    else (false, t)

def markProcessing (t : TransactionTable) (id : TransactionId) (now : Instant) :
    Bool × TransactionTable :=
  t.update id (!·.status.isTerminal) fun r =>
    { r with status := .processing, attempts := r.attempts + 1, updatedAt := now }

def advanceStep (t : TransactionTable) (id : TransactionId) (step : TransactionStep)
    (now : Instant) : Bool × TransactionTable :=
  t.update id (fun r => decide (r.step < step) && !r.status.isTerminal) fun r =>
    { r with step, updatedAt := now }

def finalize (t : TransactionTable) (id : TransactionId) (fin : Finalization) (now : Instant) :
    Bool × TransactionTable :=
  t.update id (!·.status.isTerminal) fun r =>
    { r with
      status := fin.status, compensation := fin.compensation, errorMessage := fin.errorMessage,
      updatedAt := now }

/-- The open rows last touched before the cutoff, the longest untouched first. -/
def findStuck (t : TransactionTable) (cutoff : Instant) (limit : Nat) : List TransactionRecord :=
  ((t.rows.filter fun r => !r.status.isTerminal && decide (r.updatedAt < cutoff)).mergeSort
    fun a b => decide (a.updatedAt ≤ b.updatedAt)).take limit

def touches (account : AccountId) (r : TransactionRecord) : Bool :=
  r.source == some account || r.target == some account

/-- Newest first, the greater id first among equals. -/
def newerFirst (a b : TransactionRecord) : Bool :=
  decide (b.createdAt < a.createdAt) || (a.createdAt == b.createdAt && decide (b.id ≤ a.id))

def history (t : TransactionTable) (account : AccountId) (page : PageRequest) :
    Page TransactionRecord :=
  let matching := (t.rows.filter (touches account)).mergeSort newerFirst
  ⟨(matching.drop page.offset).take page.size, page.page, page.size, matching.length⟩

def spending (t : TransactionTable) (user : UserId) (since : Instant) : List Decimal :=
  (t.rows.filter fun r =>
    r.user == user && r.status == .completed && r.type.isSpending &&
      decide (since ≤ r.createdAt)).map (·.targetAmount)

def backdate (t : TransactionTable) (id : TransactionId) (by_ : Int) : TransactionTable :=
  { t with rows := t.rows.map fun r =>
      if r.id = id then { r with updatedAt := r.updatedAt - by_, createdAt := r.createdAt - by_ }
      else r }

def answer (now : Instant) : (call : StoreCall) → TransactionTable →
    Flow.Outcome call.Answer × TransactionTable
  | .insert new, t =>
    let (outcome, t) := t.insert new now
    (.value (.ok outcome), t)
  | .get id, t => (.value (.ok (t.row? id)), t)
  | .getByKey key, t => (.value (.ok (t.rowByKey? key)), t)
  | .markProcessing id, t =>
    let (done, t) := t.markProcessing id now
    (.value (.ok done), t)
  | .advanceStep id step, t =>
    let (done, t) := t.advanceStep id step now
    (.value (.ok done), t)
  | .finalize id fin, t =>
    let (done, t) := t.finalize id fin now
    (.value (.ok done), t)
  | .findStuck cutoff limit, t => (.value (.ok (t.findStuck cutoff limit)), t)
  | .history account page, t => (.value (.ok (t.history account page)), t)
  | .sumSpending user since, t =>
    match Decimal.sum (t.spending user since) with
    | some sum => (.value (.ok sum), t)
    | none => (.panic "Addition overflowed", t)

end TransactionTable
end Settlement
