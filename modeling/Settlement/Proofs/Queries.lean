import Settlement.Sql.Session

/-!
What the statements on accounts, applied rows and transactions mean: the syntax behind their texts, and
what it does to tables of rows. Columns are as wide as what they hold, and a reference to another table
is not followed. In which order a table is read is left open.
-/

namespace Settlement
namespace Sql

inductive Term where
  /-- A parameter, counted from one. -/
  | param (n : Nat)
  | column (name : String)
  | number (n : Nat)
  | now
  | plus (left right : Term)
deriving DecidableEq

def Term.text : Term → String
  | param n => "$" ++ Digits.natText n
  | column name => name
  | number n => Digits.natText n
  | now => "NOW()"
  | plus left right => left.text ++ " + " ++ right.text

def listed (texts : List String) : String := ", ".intercalate texts

inductive Condition where
  | equal (column : String) (term : Term)
  | less (column : String) (term : Term)
  | atLeast (column : String) (term : Term)
  | oneOf (column : String) (terms : List Term)
deriving DecidableEq

def Condition.text : Condition → String
  | equal column term => column ++ " = " ++ term.text
  | less column term => column ++ " < " ++ term.text
  | atLeast column term => column ++ " >= " ++ term.text
  | oneOf column terms => column ++ " IN (" ++ listed (terms.map Term.text) ++ ")"

inductive Kind where
  /-- Counts the rows. -/
  | serial
  | plain (type : ColumnType) (width : String)

namespace Kind

def type : Kind → ColumnType
  | serial => .int8
  | plain type _ => type

def text : Kind → String
  | serial => "BIGSERIAL"
  | plain .int8 width => "BIGINT" ++ width
  | plain .int4 width => "INT" ++ width
  | plain .int2 width => "SMALLINT" ++ width
  | plain type width => type.name ++ width

end Kind

inductive Rule where
  | notNull
  | default (term : Term)
  /-- Never negative. -/
  | floor
  | primaryKey
  | unique
  | references (table column : String)
deriving DecidableEq

def Rule.text (column : String) : Rule → String
  | notNull => "NOT NULL"
  | default term => "DEFAULT " ++ term.text
  | floor => "CHECK (" ++ column ++ " >= 0)"
  | primaryKey => "PRIMARY KEY"
  | unique => "UNIQUE"
  | references table column => "REFERENCES " ++ table ++ " (" ++ column ++ ")"

structure Field where
  name : String
  kind : Kind
  rules : List Rule

namespace Field

def text (f : Field) : String :=
  " ".intercalate (f.name :: f.kind.text :: f.rules.map (Rule.text f.name))

def column (f : Field) : Column := ⟨f.name, f.kind.type⟩

def default? (f : Field) : Option Term :=
  f.rules.findSome? fun
    | .default term => some term
    | _ => none

def isKey (f : Field) : Bool := f.rules.contains .primaryKey || f.rules.contains .unique

end Field

inductive Relation where
  | accounts | applied | transactions
deriving DecidableEq

namespace Relation

def name : Relation → String
  | accounts => "accounts_tb"
  | applied => "applied_transactions_tb"
  | transactions => "transactions_tb"

def fields : Relation → List Field
  | accounts => [
    ⟨"account_id", .serial, [.primaryKey]⟩,
    ⟨"owner_id", .plain .int8 "", [.notNull]⟩,
    ⟨"currency", .plain .varchar "(3)", [.notNull]⟩,
    ⟨"balance", .plain .numeric "(19, 4)", [.notNull, .default (.number 0), .floor]⟩,
    ⟨"status", .plain .int2 "", [.notNull, .default (.number 1)]⟩,
    ⟨"created_at", .plain .timestamptz "", [.notNull, .default .now]⟩]
  | applied => [
    ⟨"operation_id", .plain .varchar "(64)", [.notNull]⟩,
    ⟨"account_id", .plain .int8 "", [.notNull, .references "accounts_tb" "account_id"]⟩,
    ⟨"amount", .plain .numeric "(19, 4)", [.notNull]⟩,
    ⟨"applied_at", .plain .timestamptz "", [.notNull, .default .now]⟩]
  | transactions => [
    ⟨"tx_id", .serial, [.primaryKey]⟩,
    ⟨"user_id", .plain .int8 "", [.notNull]⟩,
    ⟨"source_account_id", .plain .int8 "", []⟩,
    ⟨"target_account_id", .plain .int8 "", []⟩,
    ⟨"amount", .plain .numeric "(19, 4)", [.notNull]⟩,
    ⟨"target_amount", .plain .numeric "(19, 4)", [.notNull]⟩,
    ⟨"exchange_rate", .plain .numeric "(19, 8)", [.notNull]⟩,
    ⟨"currency", .plain .varchar "(3)", [.notNull]⟩,
    ⟨"status", .plain .int2 "", [.notNull]⟩,
    ⟨"step", .plain .int2 "", [.notNull, .default (.number 0)]⟩,
    ⟨"compensation", .plain .int2 "", [.notNull, .default (.number 0)]⟩,
    ⟨"operation_type", .plain .int2 "", [.notNull]⟩,
    ⟨"category_id", .plain .int8 "", [.references "transaction_categories_tb" "category_id"]⟩,
    ⟨"idempotency_key", .plain .varchar "(128)", [.notNull, .unique]⟩,
    ⟨"attempts", .plain .int4 "", [.notNull, .default (.number 0)]⟩,
    ⟨"error_message", .plain .text "", []⟩,
    ⟨"created_at", .plain .timestamptz "", [.notNull, .default .now]⟩,
    ⟨"updated_at", .plain .timestamptz "", [.notNull, .default .now]⟩]

def jointKey : Relation → List String
  | applied => ["operation_id", "account_id"]
  | accounts | transactions => []

def keys (r : Relation) : List (List String) :=
  (r.fields.filter Field.isKey).map (fun f => [f.name]) ++
    if r.jointKey = [] then [] else [r.jointKey]

def text (r : Relation) : String :=
  "CREATE TABLE IF NOT EXISTS " ++ r.name ++ " ( " ++
    listed (r.fields.map Field.text ++
      if r.jointKey = [] then [] else ["PRIMARY KEY (" ++ listed r.jointKey ++ ")"]) ++ " )"

def definition : Relation → Definition
  | accounts => .accounts
  | applied => .applied
  | transactions => .transactions

/-- The tables are those of the schema. -/
theorem text_definition (r : Relation) : r.text = r.definition.text := by
  cases r <;> decide +kernel

end Relation

inductive Query where
  | setLocal (setting value : String)
  | select (items : List Term) (table : Relation) (conditions : List Condition)
      (order : Option String) (limit : Option Term) (locked : Bool)
  | sum (column : String) (table : Relation) (conditions : List Condition)
  | update (table : Relation) (changes : List (String × Term)) (conditions : List Condition)
  /-- Not if a row agrees in the columns of `unless_`. -/
  | insert (table : Relation) (values : List (String × Term)) (unless_ returning : List String)

namespace Query

def whereText (conditions : List Condition) : String :=
  " WHERE " ++ " AND ".intercalate (conditions.map Condition.text)

def text : Query → String
  | setLocal setting value => "SET LOCAL " ++ setting ++ " = '" ++ value ++ "'"
  | select items table conditions order limit locked =>
    "SELECT " ++ listed (items.map Term.text) ++ " FROM " ++ table.name ++ whereText conditions ++
      (order.elim "" fun column => " ORDER BY " ++ column ++ " ASC") ++
      (limit.elim "" fun term => " LIMIT " ++ term.text) ++ if locked then " FOR UPDATE" else ""
  | sum column table conditions =>
    "SELECT SUM(" ++ column ++ ") FROM " ++ table.name ++ whereText conditions
  | update table changes conditions =>
    "UPDATE " ++ table.name ++ " SET " ++
      listed (changes.map fun (column, term) => column ++ " = " ++ term.text) ++ whereText conditions
  | insert table values unless_ returning =>
    "INSERT INTO " ++ table.name ++ " (" ++ listed (values.map (·.1)) ++ ") VALUES (" ++
      listed (values.map (·.2.text)) ++ ")" ++
      (if unless_ = [] then "" else " ON CONFLICT (" ++ listed unless_ ++ ") DO NOTHING") ++
      if returning = [] then "" else " RETURNING " ++ listed returning

end Query

namespace Statement

def records (conditions : List Condition) (order : Option String) (limit : Option Term) : Query :=
  .select (Relation.transactions.fields.map fun f => .column f.name) .transactions conditions order
    limit false

/-- What the statements on accounts, applied rows and transactions say. -/
def query? : Statement → Option Query
  | setLockTimeout milliseconds =>
    some (.setLocal "lock_timeout" (Digits.natText milliseconds ++ "ms"))
  | lockAccount _ =>
    some (.select [.column "balance", .column "status"] .accounts [.equal "account_id" (.param 1)]
      none none true)
  | findApplied .. =>
    some (.select [.number 1] .applied
      [.equal "operation_id" (.param 1), .equal "account_id" (.param 2)] none none false)
  | addBalance .. =>
    some (.update .accounts [("balance", .plus (.column "balance") (.param 1))]
      [.equal "account_id" (.param 2)])
  | insertApplied .. =>
    some (.insert .applied
      [("operation_id", .param 1), ("account_id", .param 2), ("amount", .param 3),
        ("applied_at", .now)]
      ["operation_id", "account_id"] [])
  | insertTransaction _ =>
    some (.insert .transactions
      [("user_id", .param 1), ("source_account_id", .param 2), ("target_account_id", .param 3),
        ("amount", .param 4), ("target_amount", .param 5), ("exchange_rate", .param 6),
        ("currency", .param 7), ("status", .param 8), ("step", .param 9),
        ("compensation", .param 10), ("operation_type", .param 11), ("category_id", .param 12),
        ("idempotency_key", .param 13), ("created_at", .now), ("updated_at", .now)]
      [] ["tx_id"])
  | selectTransaction _ => some (records [.equal "tx_id" (.param 1)] none none)
  | selectByKey _ => some (records [.equal "idempotency_key" (.param 1)] none none)
  | markProcessing _ =>
    some (.update .transactions
      [("status", .param 1), ("attempts", .plus (.column "attempts") (.number 1)),
        ("updated_at", .now)]
      [.equal "tx_id" (.param 2), .oneOf "status" [.param 3, .param 1]])
  | advanceStep .. =>
    some (.update .transactions [("step", .param 1), ("updated_at", .now)]
      [.equal "tx_id" (.param 2), .less "step" (.param 1), .oneOf "status" [.param 3, .param 4]])
  | finalize .. =>
    some (.update .transactions
      [("status", .param 1), ("compensation", .param 2), ("error_message", .param 3),
        ("updated_at", .now)]
      [.equal "tx_id" (.param 4), .oneOf "status" [.param 5, .param 6]])
  | findStuck .. =>
    some (records [.oneOf "status" [.param 1, .param 2], .less "updated_at" (.param 3)]
      (some "updated_at") (some (.param 4)))
  | sumSpending .. =>
    some (.sum "target_amount" .transactions
      [.equal "user_id" (.param 1), .equal "status" (.param 2),
        .oneOf "operation_type" [.param 3, .param 4], .atLeast "created_at" (.param 5)])
  | _ => none

/-- What is understood is what is sent. -/
theorem query?_text {s : Statement} {q : Query} (h : s.query? = some q) : q.text = s.text := by
  cases s
  all_goals cases h
  case setLockTimeout milliseconds =>
    show "SET LOCAL " ++ "lock_timeout" ++ " = '" ++ (Digits.natText milliseconds ++ "ms") ++ "'" =
      "SET LOCAL lock_timeout = '" ++ Digits.natText milliseconds ++ "ms'"
    have hfront : "SET LOCAL " ++ "lock_timeout" ++ " = '" = "SET LOCAL lock_timeout = '" := by
      decide +kernel
    have hback : "ms" ++ "'" = "ms'" := by decide +kernel
    rw [hfront, ← hback]
    simp only [String.append_assoc]
  all_goals
    dsimp only [Statement.text]
    decide +kernel

end Statement

end Sql
end Settlement
