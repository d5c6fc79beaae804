import Mathlib.Data.List.Nodup
import Settlement.Proofs.Numerics
import Settlement.Proofs.Queries

/-!
Tables of rows under the statements of `Queries`: conditions that are true and not merely unknown pick
the rows, sums are exact, and a row that breaks a rule of its table is turned down. Main statements:
what a table is read for does not depend on the order in which its rows are read.
-/

namespace Settlement
namespace Sql

namespace Numeric

/-- A decimal as a database is sent it: a zero has no places. -/
def ofDecimal (d : Decimal) : Numeric :=
  if d.isZero then ⟨0, 0⟩ else ⟨d.coefficient, d.scale⟩

def add (a b : Numeric) : Numeric :=
  ⟨a.coefficient * tenTo (max a.scale b.scale - a.scale) +
    b.coefficient * tenTo (max a.scale b.scale - b.scale), max a.scale b.scale⟩

@[simp] theorem value_ofDecimal (d : Decimal) : (ofDecimal d).value = d.value := by
  unfold ofDecimal
  split
  next hz => simp [value, Decimal.value_of_isZero hz]
  next => rfl

@[simp] theorem value_add (a b : Numeric) : (a.add b).value = a.value + b.value := by
  have hscaled : ∀ (n : Numeric) (scale : Nat), n.scale ≤ scale →
      n.value = (n.coefficient * (tenTo (scale - n.scale) : Nat) : Int) / tenTo scale := by
    intro n scale hle
    rw [value, div_eq_div_iff (tenTo_cast_ne_zero _) (tenTo_cast_ne_zero _)]
    have hsplit : tenTo scale = tenTo (scale - n.scale) * tenTo n.scale := by
      rw [← tenTo_add, Nat.sub_add_cancel hle]
    rw [hsplit]
    push_cast
    ring
  rw [hscaled a _ (le_max_left a.scale b.scale), hscaled b _ (le_max_right a.scale b.scale),
    ← add_div, add, value]
  push_cast
  rfl

/-- Coefficients at a common scale are ordered as the values are. -/
theorem less_iff (a b : Numeric) :
    a.coefficient * tenTo b.scale < b.coefficient * tenTo a.scale ↔ a.value < b.value := by
  have ha : (0 : ℚ) < tenTo a.scale := Nat.cast_pos.mpr (tenTo_pos _)
  have hb : (0 : ℚ) < tenTo b.scale := Nat.cast_pos.mpr (tenTo_pos _)
  rw [value, value, div_lt_div_iff₀ ha hb]
  exact_mod_cast Iff.rfl

theorem value_foldl (ns : List Numeric) (n : Numeric) :
    (ns.foldl add n).value = n.value + (ns.map value).sum := by
  induction ns generalizing n with
  | nil => simp
  | cons m ns ih => rw [List.foldl_cons, ih, value_add, List.map_cons, List.sum_cons, add_assoc]

end Numeric

def Arg.cell : Arg → Cell
  | .null => .null
  | .int n => .int n
  | .decimal d => .numeric (.ofDecimal d)
  | .text s => .text s
  | .instant t => .instant t

section

variable {n : Int} {d : Decimal} {s : String}

@[simp] theorem Arg.cell_null : Arg.null.cell = .null := rfl

@[simp] theorem Arg.cell_int : (Arg.int n).cell = .int n := rfl

@[simp] theorem Arg.cell_decimal : (Arg.decimal d).cell = .numeric (.ofDecimal d) := rfl

@[simp] theorem Arg.cell_text : (Arg.text s).cell = .text s := rfl

@[simp] theorem Arg.cell_instant : (Arg.instant n).cell = .instant n := rfl

end

namespace Cell

def equals : Cell → Cell → Bool
  | .int a, .int b => a == b
  | .numeric a, .numeric b => a.coefficient * tenTo b.scale == b.coefficient * tenTo a.scale
  | .text a, .text b => a == b
  | .instant a, .instant b => a == b
  | _, _ => false

def less : Cell → Cell → Bool
  | .int a, .int b => decide (a < b)
  | .numeric a, .numeric b => decide (a.coefficient * tenTo b.scale < b.coefficient * tenTo a.scale)
  | .instant a, .instant b => decide (a < b)
  | _, _ => false

section

variable {m n : Int} {a b : Numeric} {s t : String}

@[simp] theorem equals_int : (Cell.int m).equals (.int n) = (m == n) := rfl

@[simp] theorem equals_text : (Cell.text s).equals (.text t) = (s == t) := rfl

@[simp] theorem equals_instant : (Cell.instant m).equals (.instant n) = (m == n) := rfl

@[simp] theorem less_int : (Cell.int m).less (.int n) = decide (m < n) := rfl

@[simp] theorem less_instant : (Cell.instant m).less (.instant n) = decide (m < n) := rfl

@[simp] theorem less_numeric : (Cell.numeric a).less (.numeric b) = decide (a.value < b.value) :=
  decide_eq_decide.mpr (Numeric.less_iff a b)

/-- Only numbers with places lie below one of their kind. -/
theorem less_numeric_of_ne {cell : Cell} (h : ∀ a, cell ≠ .numeric a) :
    cell.less (.numeric b) = false := by
  cases cell with
  | numeric a => exact absurd rfl (h a)
  | null | int | text | instant => rfl

end

def plus : Cell → Cell → Cell
  | .int a, .int b => .int (a + b)
  | .numeric a, .numeric b => .numeric (a.add b)
  | _, _ => .null

def into : ColumnType → Cell → Cell
  | .numeric, .int n => .numeric ⟨n, 0⟩
  | _, cell => cell

def sum (cells : List Cell) : Cell :=
  match cells.filter (· ≠ .null) with
  | [] => .null
  | first :: rest => rest.foldl plus first

theorem foldl_plus (ns : List Numeric) (n : Numeric) :
    (ns.map numeric).foldl plus (.numeric n) = .numeric (ns.foldl Numeric.add n) := by
  induction ns generalizing n with
  | nil => rfl
  | cons m ns ih => exact ih (n.add m)

/-- The sum of no numbers is null, and that of some numbers is exact. -/
theorem sum_numerics (ns : List Numeric) :
    (sum (ns.map numeric) = .null ∧ ns = []) ∨
      ∃ n, sum (ns.map numeric) = .numeric n ∧ n.value = (ns.map Numeric.value).sum := by
  have hfilter : (ns.map numeric).filter (· ≠ .null) = ns.map numeric :=
    List.filter_eq_self.mpr (by simp)
  unfold sum
  rw [hfilter]
  cases ns with
  | nil => exact .inl ⟨rfl, rfl⟩
  | cons n ns =>
    refine .inr ⟨_, foldl_plus ns n, ?_⟩
    rw [Numeric.value_foldl, List.map_cons, List.sum_cons]

end Cell

namespace Row

def cell (row : Row) (name : String) : Cell :=
  ((row.find? (·.1.name == name)).map (·.2)).getD .null

def agrees (row other : Row) (columns : List String) : Bool :=
  columns.all fun name => (row.cell name).equals (other.cell name)

def with_ (row : Row) (changes : List (String × Cell)) : Row :=
  row.map fun (column, cell) =>
    (column, ((changes.lookup column.name).getD cell).into column.type)

end Row

structure Reading where
  params : List Cell
  now : Instant

namespace Term

def eval (e : Reading) (row : Row) : Term → Cell
  | param n => (e.params[n - 1]?).getD .null
  | column name => row.cell name
  | number n => .int n
  | now => .instant e.now
  | plus left right => (left.eval e row).plus (right.eval e row)

def shown (e : Reading) (row : Row) : Term → Column × Cell
  | column name => (row.find? (·.1.name == name)).getD (⟨name, .text⟩, .null)
  | term => (⟨"?column?", .int4⟩, term.eval e row)

end Term

def Condition.holds (e : Reading) (row : Row) : Condition → Bool
  | equal column term => (row.cell column).equals (term.eval e row)
  | less column term => (row.cell column).less (term.eval e row)
  | atLeast column term =>
    (term.eval e row).less (row.cell column) || (row.cell column).equals (term.eval e row)
  | oneOf column terms => terms.any fun term => (row.cell column).equals (term.eval e row)

def meets (e : Reading) (conditions : List Condition) (row : Row) : Bool :=
  conditions.all (·.holds e row)

namespace Field

def initial (f : Field) (e : Reading) (count : Nat) : Cell :=
  match f.kind with
  | .serial => .int (count + 1)
  | .plain .. => f.default?.elim .null fun term => term.eval e []

def fault? (f : Field) (cell : Cell) : Option SqlError :=
  if cell = .null ∧ f.rules.contains .notNull then
    some (.database (some "23502") ("null value in column \"" ++ f.name ++ "\""))
  else if cell.less (.numeric ⟨0, 0⟩) ∧ f.rules.contains .floor then
    some (.database (some "23514") ("\"" ++ f.name ++ "\" violates check constraint"))
  else none

end Field

/-- A value that is there and not negative breaks no rule. -/
theorem Field.fault?_eq_none {f : Field} {cell : Cell} (hn : cell ≠ .null)
    (hf : cell.less (.numeric ⟨0, 0⟩) = false) : f.fault? cell = none := by
  simp [fault?, hn, hf]

namespace Relation

def fill (r : Relation) (e : Reading) (count : Nat) (values : List (String × Cell)) : Row :=
  r.fields.map fun f =>
    (f.column, ((values.lookup f.name).getD (f.initial e count)).into f.kind.type)

def fault? (r : Relation) (row : Row) : Option SqlError :=
  r.fields.findSome? fun f => f.fault? (row.cell f.name)

end Relation

abbrev Tables := Relation → List Row

/-- An order in which a database comes upon the rows of a table. -/
structure Scan where
  order : List Row → List Row
  perm (rows : List Row) : (order rows).Perm rows

namespace Query

def picked (scan : Scan) (e : Reading) (conditions : List Condition) (rows : List Row) : List Row :=
  (scan.order rows).filter (meets e conditions)

def sorted (order : Option String) (rows : List Row) : List Row :=
  match order with
  | none => rows
  | some column => rows.mergeSort fun a b => !(b.cell column).less (a.cell column)

def cut (e : Reading) (limit : Option Term) (rows : List Row) : Except SqlError (List Row) :=
  match limit.map (Term.eval e []) with
  | some (.int n) =>
    if n < 0 then .error (.database (some "2201W") "LIMIT must not be negative")
    else .ok (rows.take n.toNat)
  | _ => .ok rows

def written (e : Reading) (changes : List (String × Term)) (row : Row) : Row :=
  row.with_ (changes.map fun (name, term) => (name, term.eval e row))

def updated (e : Reading) (changes : List (String × Term)) (conditions : List Condition)
    (rows : List Row) : List Row :=
  rows.map fun row => if meets e conditions row then written e changes row else row

/-- What a statement brings back and what it makes of the tables. One that fails changes nothing. -/
def run (scan : Scan) (e : Reading) (tables : Tables) : Query → Except SqlError (Result × Tables)
  | setLocal .. => .ok (⟨[], 0⟩, tables)
  | select items table conditions order limit _ => do
    let rows ← cut e limit (sorted order (picked scan e conditions (tables table)))
    return (⟨rows.map fun row => items.map (Term.shown e row), rows.length⟩, tables)
  | sum column table conditions =>
    let cells := (picked scan e conditions (tables table)).map (Row.cell · column)
    .ok (⟨[[(⟨"sum", .numeric⟩, Cell.sum cells)]], 1⟩, tables)
  | update table changes conditions =>
    let rows := tables table
    match ((rows.filter (meets e conditions)).map (written e changes)).findSome? table.fault? with
    | some error => .error error
    | none =>
      .ok (⟨[], rows.countP (meets e conditions)⟩,
        Function.update tables table (updated e changes conditions rows))
  | insert table values unless_ returning =>
    let rows := tables table
    let row := table.fill e rows.length (values.map fun (name, term) => (name, term.eval e []))
    match table.fault? row with
    | some error => .error error
    | none =>
      if unless_ ≠ [] ∧ rows.any (Row.agrees row · unless_) then .ok (⟨[], 0⟩, tables)
      else if table.keys.any fun key => rows.any (Row.agrees row · key) then
        .error (.database (some "23505") "duplicate key value violates unique constraint")
      else
        .ok (⟨if returning = [] then []
            else [returning.map fun name => (Term.column name).shown e row], 1⟩,
          Function.update tables table (rows ++ [row]))

section

variable {β κ : Type} {R : Row → β → Prop} {rows : List Row} {xs : List β} {e : Reading}
  {conditions : List Condition} {p : β → Bool}

theorem exists_of_mem {α : Type} {R : α → β → Prop} {as : List α} (h : List.Forall₂ R as xs) :
    ∀ a ∈ as, ∃ x ∈ xs, R a x := by
  induction h with
  | nil => simp
  | cons hr _ ih =>
    intro a ha
    rcases List.mem_cons.mp ha with rfl | ha
    · exact ⟨_, List.mem_cons_self, hr⟩
    · obtain ⟨x, hx, hr⟩ := ih a ha
      exact ⟨x, List.mem_cons_of_mem _ hx, hr⟩

/-- What is picked stands for what meets the condition, in some order. -/
theorem picked_matches (scan : Scan) (h : List.Forall₂ R rows xs)
    (hp : ∀ row x, R row x → meets e conditions row = p x) :
    ∃ ys, List.Forall₂ R (picked scan e conditions rows) ys ∧ ys.Perm (xs.filter p) := by
  obtain ⟨zs, hz, hperm⟩ := List.perm_comp_forall₂ (scan.perm rows) h
  refine ⟨zs.filter p, List.rel_filter ?_ hz, hperm.filter p⟩
  intro row x hr
  show _ = true ↔ _ = true
  rw [hp row x hr]

/-- There is one of each key at most. -/
theorem filter_key [DecidableEq κ] {key : β → κ} (h : (xs.map key).Nodup) (k : κ) :
    xs.filter (key · == k) = (xs.find? (key · == k)).toList := by
  induction xs with
  | nil => rfl
  | cons x xs ih =>
    rw [List.map_cons, List.nodup_cons] at h
    by_cases hx : key x = k
    · have hnone : xs.filter (key · == k) = [] := by
        refine List.filter_eq_nil_iff.mpr fun y hy => ?_
        intro hk
        exact h.1 (List.mem_map.mpr ⟨y, hy, (eq_of_beq hk).trans hx.symm⟩)
      simp [hx, hnone]
    · simp [hx, ih h.2]

theorem find?_key [DecidableEq κ] {key : β → κ} (h : (xs.map key).Nodup) {x : β} (hx : x ∈ xs) :
    xs.find? (key · == key x) = some x := by
  have hm : x ∈ xs.filter (key · == key x) := List.mem_filter.mpr ⟨hx, by simp⟩
  rw [filter_key h] at hm
  simpa using hm

/-- What a reading of single rows brings back, and that it changes nothing. -/
theorem run_select {S : Row → β → Prop} {items : List Term} {table : Relation} {locked : Bool}
    {tables : Tables} (scan : Scan) (h : List.Forall₂ R (tables table) xs)
    (hp : ∀ row x, R row x → meets e conditions row = p x)
    (hs : ∀ row x, R row x → S (items.map (Term.shown e row)) x) :
    ∃ rows ys, run scan e tables (.select items table conditions none none locked) =
        .ok (⟨rows, rows.length⟩, tables) ∧
      List.Forall₂ S rows ys ∧ ys.Perm (xs.filter p) := by
  obtain ⟨ys, hy, hperm⟩ := picked_matches scan h hp
  refine ⟨(picked scan e conditions (tables table)).map fun row => items.map (Term.shown e row), ys,
    ?_, List.forall₂_map_left_iff.mpr (hy.imp hs), hperm⟩
  rw [List.length_map]
  rfl

theorem forall₂_eq_map {f : β → Row} :
    List.Forall₂ (fun row x => row = f x) rows xs ↔ rows = xs.map f := by
  rw [← List.forall₂_map_right_iff, List.forall₂_eq_eq_eq]

/-- The first rows by an instant. Which of them come first at the same instant is left open. -/
theorem run_front {f : β → Row} {key : β → Int} {items : List Term} {table : Relation}
    {column : String} {limit : Term} {n : Nat} {tables : Tables} (scan : Scan)
    (h : tables table = xs.map f) (hp : ∀ x, meets e conditions (f x) = p x)
    (hk : ∀ x, (f x).cell column = .instant (key x)) (hl : limit.eval e [] = .int n)
    (hs : ∀ x, items.map (Term.shown e (f x)) = f x) :
    ∃ ys front : List β, ys.Perm (xs.filter p) ∧
      front = (ys.mergeSort fun a b => decide (key a ≤ key b)).take n ∧
      run scan e tables (.select items table conditions (some column) (some limit) false) =
        .ok (⟨front.map f, front.length⟩, tables) := by
  have hmeets : ∀ row x, row = f x → meets e conditions row = p x := by
    rintro _ x rfl
    exact hp x
  obtain ⟨ys, hy, hperm⟩ := picked_matches scan (forall₂_eq_map.mpr h) hmeets
  rw [forall₂_eq_map] at hy
  have hsorted : sorted (some column) (ys.map f) =
      (ys.mergeSort fun a b => decide (key a ≤ key b)).map f := by
    rw [sorted]
    refine (List.map_mergeSort fun a _ b _ => ?_).symm
    rw [hk, hk, Cell.less_instant, ← decide_not]
    exact decide_eq_decide.mpr Int.not_lt.symm
  have hcut : ∀ rows, cut e (some limit) rows = .ok (rows.take n) := by
    intro rows
    simp [cut, hl, Int.not_lt.mpr (Int.natCast_nonneg n)]
  have hshown : (fun row => items.map (Term.shown e row)) ∘ f = f := funext hs
  refine ⟨ys, _, hperm, rfl, ?_⟩
  simp only [run, hy, hsorted, hcut, ← List.map_take]
  show Except.ok _ = _
  rw [List.length_map, List.map_map, hshown]

/-- A negative number of rows is turned down. -/
theorem run_negative {items : List Term} {table : Relation} {order : Option String} {limit : Term}
    {n : Int} {tables : Tables} {locked : Bool} (hl : limit.eval e [] = .int n) (hn : n < 0) :
    run scan e tables (.select items table conditions order (some limit) locked) =
      .error (.database (some "2201W") "LIMIT must not be negative") := by
  simp only [run, cut, Option.map_some, hl, if_pos hn]
  rfl

/-- The sum of a column over the rows that meet the conditions. -/
theorem run_sum {number : β → Numeric} {column : String} {table : Relation} {tables : Tables}
    (scan : Scan) (h : List.Forall₂ R (tables table) xs)
    (hp : ∀ row x, R row x → meets e conditions row = p x)
    (hc : ∀ row x, R row x → row.cell column = .numeric (number x)) :
    ∃ cell, run scan e tables (.sum column table conditions) =
        .ok (⟨[[(⟨"sum", .numeric⟩, cell)]], 1⟩, tables) ∧
      ((cell = .null ∧ xs.filter p = []) ∨
        ∃ n, cell = .numeric n ∧ n.value = ((xs.filter p).map (number · |>.value)).sum) := by
  obtain ⟨ys, hy, hperm⟩ := picked_matches scan h hp
  have hcells : (picked scan e conditions (tables table)).map (Row.cell · column) =
      (ys.map number).map Cell.numeric := by
    rw [List.map_map, ← List.forall₂_eq_eq_eq, List.forall₂_map_left_iff, List.forall₂_map_right_iff]
    exact hy.imp hc
  refine ⟨_, rfl, ?_⟩
  rw [hcells]
  rcases Cell.sum_numerics (ys.map number) with ⟨hnull, hnil⟩ | ⟨n, hsum, hv⟩
  · rw [List.map_eq_nil_iff] at hnil
    subst hnil
    exact .inl ⟨hnull, hperm.symm.eq_nil⟩
  · refine .inr ⟨n, hsum, ?_⟩
    rw [hv, List.map_map]
    exact (hperm.map _).sum_eq

theorem forall₂_mem (h : List.Forall₂ R rows xs) :
    List.Forall₂ (fun row x => R row x ∧ x ∈ xs) rows xs := by
  induction h with
  | nil => exact .nil
  | cons hr _ ih =>
    exact .cons ⟨hr, List.mem_cons_self⟩ (ih.imp fun _ _ h => ⟨h.1, List.mem_cons_of_mem _ h.2⟩)

section

variable {changes : List (String × Term)} {w : β → β}

theorem updated_matches (h : List.Forall₂ R rows xs)
    (hp : ∀ row x, R row x → meets e conditions row = p x)
    (hw : ∀ row x, R row x → x ∈ xs → p x = true → R (written e changes row) (w x)) :
    List.Forall₂ R (updated e changes conditions rows) (xs.map fun x => if p x then w x else x) := by
  refine List.rel_map ?_ (forall₂_mem h)
  rintro row x ⟨hr, hx⟩
  dsimp only
  rw [hp row x hr]
  split
  next hpx => exact hw row x hr hx hpx
  next => exact hr

/-- An update writes the rows that meet the condition, and counts them. -/
theorem run_update {scan : Scan} {tables : Tables} {table : Relation}
    (h : List.Forall₂ R (tables table) xs)
    (hp : ∀ row x, R row x → meets e conditions row = p x)
    (hw : ∀ row x, R row x → x ∈ xs → p x = true → R (written e changes row) (w x))
    (hf : ∀ row x, R row x → table.fault? row = none) :
    run scan e tables (.update table changes conditions) =
      .ok (⟨[], xs.countP p⟩,
        Function.update tables table (updated e changes conditions (tables table))) := by
  have hpicked : List.Forall₂ R ((tables table).filter (meets e conditions)) (xs.filter p) := by
    refine List.rel_filter ?_ h
    intro row x hr
    show _ = true ↔ _ = true
    rw [hp row x hr]
  have hcount : (tables table).countP (meets e conditions) = xs.countP p := by
    rw [List.countP_eq_length_filter, List.countP_eq_length_filter, hpicked.length_eq]
  have hfault : (((tables table).filter (meets e conditions)).map (written e changes)).findSome?
      table.fault? = none := by
    rw [List.findSome?_eq_none_iff]
    intro row hrow
    obtain ⟨old, hold, rfl⟩ := List.mem_map.mp hrow
    obtain ⟨hmem, hmeets⟩ := List.mem_filter.mp hold
    obtain ⟨x, hx, hr⟩ := exists_of_mem h old hmem
    exact hf _ _ (hw old x hr hx ((hp old x hr).symm.trans hmeets))
  simp only [run, hfault, hcount]

end

section

variable {scan : Scan} {tables : Tables} {table : Relation} {values : List (String × Term)}
  {unless_ returning : List String} {row : Row}

/-- A row that no other one stands in the way of. -/
theorem run_insert
    (hrow : table.fill e (tables table).length (values.map fun (name, term) => (name, term.eval e [])) =
      row)
    (hf : table.fault? row = none)
    (hu : unless_ ≠ [] → ∀ other ∈ tables table, row.agrees other unless_ = false)
    (hk : ∀ key ∈ table.keys, ∀ other ∈ tables table, row.agrees other key = false) :
    run scan e tables (.insert table values unless_ returning) =
      .ok (⟨if returning = [] then []
          else [returning.map fun name => (Term.column name).shown e row], 1⟩,
        Function.update tables table (tables table ++ [row])) := by
  have hunless : ¬(unless_ ≠ [] ∧ (tables table).any (Row.agrees row · unless_) = true) := by
    rintro ⟨hne, hany⟩
    obtain ⟨other, ho, hag⟩ := List.any_eq_true.mp hany
    rw [hu hne other ho] at hag
    cases hag
  have hkeys : (table.keys.any fun key => (tables table).any (Row.agrees row · key)) = false := by
    rw [List.any_eq_false]
    intro key hkey
    rw [Bool.not_eq_true, List.any_eq_false]
    intro other ho
    rw [hk key hkey other ho]
    decide
  simp only [run, hrow, hf, hkeys, if_neg hunless, Bool.false_eq_true, if_false]

/-- A row with the key of another one. -/
theorem run_insert_duplicate {key : List String} {other : Row}
    (hrow : table.fill e (tables table).length (values.map fun (name, term) => (name, term.eval e [])) =
      row)
    (hf : table.fault? row = none) (hkey : key ∈ table.keys) (ho : other ∈ tables table)
    (ha : row.agrees other key = true) :
    run scan e tables (.insert table values [] returning) =
      .error (.database (some "23505") "duplicate key value violates unique constraint") := by
  have hkeys : (table.keys.any fun key => (tables table).any (Row.agrees row · key)) = true := by
    rw [List.any_eq_true]
    exact ⟨key, hkey, List.any_eq_true.mpr ⟨other, ho, ha⟩⟩
  simp only [run, hrow, hf, hkeys, ne_eq, not_true_eq_false, false_and, if_false, if_true]

end

end

end Query
end Sql
end Settlement
