import Settlement.Json.Decode
import Settlement.Sql.Script

/-!
The replies of a scripted database as JSON: rows under named and typed columns, a number of changed
rows, or an error.
-/

namespace Settlement
namespace Sql

def Cell.ofJson? (type : ColumnType) (v : Json) : Option Cell :=
  if v.isNull then some .null
  else
    match type with
    | .text | .varchar => v.toString?.map .text
    | .numeric => (v.toString?.bind Numeric.read?).map .numeric
    | .timestamptz => v.toInt64?.map .instant
    | .int8 | .int4 | .int2 => v.toInt64?.map .int

def Row.ofJson? (columns : List Column) (v : Json) : Option Row := do
  (columns.zip (← v.items?)).mapM fun (column, cell) => do
    some (column, ← Cell.ofJson? column.type cell)

/-- As many rows as a result has count as changed. -/
def Result.ofJson? (v : Json) : Option Result := do
  match v.member? "cols" with
  | none =>
    match v.member? "affected" with
    | none => some ⟨[], 0⟩
    | some n => some ⟨[], ← n.toNat64?⟩
  | some columns =>
    let columns ← (← columns.items?).mapM fun c => c.toString?.bind Column.read?
    let rows ← (← (← v.member? "rows").items?).mapM (Row.ofJson? columns)
    some ⟨rows, rows.length⟩

def SqlError.ofJson? (v : Json) : Option SqlError := do
  some (.database (← (← v.member? "error").toString?) (← (← v.member? "message").toString?))

def Reply.ofJson? (v : Json) : Option Reply :=
  if (v.member? "error").isSome then (SqlError.ofJson? v).map .error
  else (Result.ofJson? v).map .result

end Sql
end Settlement
