import Settlement.Proofs.Sessions
import Settlement.Proofs.Tables

/-!
A database server with one client. Statements outside of a transaction take effect at once, those
inside when it is committed; one that fails spoils its transaction. Requests that are not for the tables
are answered by somebody else.
-/

namespace Settlement
namespace Sql

inductive Work where
  | none
  /-- The tables as it has left them so far. -/
  | pending (tables : Tables)
  /-- A statement failed. -/
  | spoilt

structure Server where
  tables : Tables
  work : Work := .none

namespace Server

def seen? (server : Server) : Option Tables :=
  match server.work with
  | .none => some server.tables
  | .pending tables => some tables
  | .spoilt => none

def leave (server : Server) (tables : Tables) : Server :=
  match server.work with
  | .none => ⟨tables, .none⟩
  | .pending _ | .spoilt => ⟨server.tables, .pending tables⟩

def fail (server : Server) : Server :=
  match server.work with
  | .none => server
  | .pending _ | .spoilt => ⟨server.tables, .spoilt⟩

def rolledBack (server : Server) : Server := ⟨server.tables, .none⟩

def committed (server : Server) : Server :=
  match server.work with
  | .pending tables => ⟨tables, .none⟩
  | .none | .spoilt => server.rolledBack

end Server

/-- The surroundings of a server: how it reads tables, its clock, and who answers everything else. -/
structure Site where
  scan : Scan
  now : Instant
  others (r : Request) : r.Answer

namespace Site

def reading (site : Site) (s : Statement) : Reading := ⟨s.args.map Arg.cell, site.now⟩

def execute (site : Site) (s : Statement) (q : Query) (server : Server) :
    Except SqlError Result × Server :=
  match server.seen? with
  | none => (.error (.database (some "25P02") "current transaction is aborted"), server)
  | some tables =>
    match q.run site.scan (site.reading s) tables with
    | .ok (result, tables) => (.ok result, server.leave tables)
    | .error e => (.error e, server.fail)

def answer (site : Site) : (r : Request) → Server → r.Answer × Server
  | .statement s, server =>
    match s.query? with
    | some q => site.execute s q server
    | none => (site.others (.statement s), server)
  | .beginTransaction, server => (.ok (), ⟨server.tables, .pending server.tables⟩)
  | .commit, server => (.ok (), server.committed)
  | .rollback, server => (.ok (), server.rolledBack)
  | .abandon, server => ((), server.rolledBack)
  | r, server => (site.others r, server)

def serve (site : Site) (x : Flow Request Request.Answer α) (server : Server) :
    Flow.Outcome α × Server :=
  let (outcome, _, server) :=
    x.run (fun r server => (.value (site.answer r server).1, (site.answer r server).2)) server
  (outcome, server)

def asking (site : Site) : Asking Request.Answer Server where
  ask r next server := next (site.answer r server).1 (site.answer r server).2
  mono hn h := hn _ _ h

variable {site : Site} {server : Server}

/-- What is told of a session holds of its end. -/
theorem serve_of_tells {x : Flow Request Request.Answer α} {post : Server → Flow.Outcome α → Prop}
    (h : x.Tells site.asking post server) : post (site.serve x server).2 (site.serve x server).1 := by
  induction x generalizing server with
  | done a => exact h
  | panic message => exact h
  | note e rest ih => exact ih h
  | ask r next ih => exact ih _ h

/-- What is told of a session that never breaks off holds of its end. -/
theorem serve_of_reports {ε α : Type} (site : Site) {p : Session ε α}
    (post : Flow.Outcome (Except ε α) → Server → Prop)
    (h : Reports site.asking p (fun a server => post (.value (.ok a)) server)
      (fun e server => post (.value (.error e)) server) (fun _ => False) server) :
    post (site.serve p.run server).1 (site.serve p.run server).2 := by
  have hend := serve_of_tells h
  generalize site.serve p.run server = served at hend ⊢
  obtain ⟨(e | a) | message, server⟩ := served
  · exact hend
  · exact hend
  · exact hend.elim

/-- A session that is told to fail and to leave the server as it was. -/
theorem serve_error {ε α : Type} {p : Session ε α} {e : ε}
    (h : Reports site.asking p (fun _ _ => False) (fun e' server' => e' = e ∧ server' = server)
      (fun _ => False) server) : site.serve p.run server = (.value (.error e), server) := by
  have hend := serve_of_tells h
  generalize site.serve p.run server = served at hend ⊢
  obtain ⟨(e' | a) | message, server'⟩ := served
  · obtain ⟨rfl, rfl⟩ := hend
    rfl
  · exact hend.elim
  · exact hend.elim

section

open Session

variable {s : Statement} {q : Query} {tables tables' : Tables} {result : Result}

theorem answer_ok (hq : s.query? = some q) (ht : server.seen? = some tables)
    (hr : q.run site.scan (site.reading s) tables = .ok (result, tables')) :
    site.answer (.statement s) server = (.ok result, server.leave tables') := by
  simp only [answer, hq, execute, ht, hr]

theorem answer_error {e : SqlError} (hq : s.query? = some q) (ht : server.seen? = some tables)
    (hr : q.run site.scan (site.reading s) tables = .error e) :
    site.answer (.statement s) server = (.error e, server.fail) := by
  simp only [answer, hq, execute, ht, hr]

variable {err : SqlError → Server → Prop} {broke : Server → Prop}

/-- A statement that goes through. -/
theorem reports_send {ok : Result → Server → Prop} (hq : s.query? = some q)
    (ht : server.seen? = some tables)
    (hr : q.run site.scan (site.reading s) tables = .ok (result, tables')) :
    Reports site.asking (send s) ok err broke server ↔ ok result (server.leave tables') := by
  show Closes _ _ _ (site.answer (.statement s) server).2
    (.value (site.answer (.statement s) server).1) ↔ _
  rw [answer_ok hq ht hr]
  exact Iff.rfl

/-- A statement that fails. -/
theorem reports_send_error {ok : Result → Server → Prop} {e : SqlError} (hq : s.query? = some q)
    (ht : server.seen? = some tables)
    (hr : q.run site.scan (site.reading s) tables = .error e) :
    Reports site.asking (send s) ok err broke server ↔ err e server.fail := by
  show Closes _ _ _ (site.answer (.statement s) server).2
    (.value (site.answer (.statement s) server).1) ↔ _
  rw [answer_error hq ht hr]
  exact Iff.rfl

theorem leave_seen (ht : server.seen? = some tables) : server.leave tables = server := by
  obtain ⟨_, work⟩ := server
  cases work <;> cases ht <;> rfl

/-- The first of the rows that meet the conditions, if there is any. -/
theorem reports_fetchOptional {β : Type} {R S : Row → β → Prop} {xs : List β} {p : β → Bool}
    {items : List Term} {table : Relation} {conditions : List Condition} {locked : Bool}
    {ok : Option Row → Server → Prop}
    (hq : s.query? = some (.select items table conditions none none locked))
    (ht : server.seen? = some tables) (h : List.Forall₂ R (tables table) xs)
    (hp : ∀ row x, R row x → meets (site.reading s) conditions row = p x)
    (hs : ∀ row x, R row x → S (items.map (Term.shown (site.reading s) row)) x)
    (hnone : (∀ x ∈ xs, p x = false) → ok none server)
    (hsome : ∀ row x, S row x → x ∈ xs → p x = true → ok (some row) server) :
    Reports site.asking (fetchOptional s) ok err broke server := by
  obtain ⟨rows, ys, hr, hy, hperm⟩ := Query.run_select site.scan h hp hs
  unfold fetchOptional fetchAll
  rw [Reports.of_bind, Reports.of_map, reports_send hq ht hr, leave_seen ht]
  cases hy with
  | nil =>
    refine hnone fun x hx => ?_
    by_contra hpx
    have hm : x ∈ xs.filter p := List.mem_filter.mpr ⟨hx, by simpa using hpx⟩
    rw [← hperm.mem_iff] at hm
    cases hm
  | cons hsx =>
    obtain ⟨hx, hpx⟩ := List.mem_filter.mp (hperm.mem_iff.mp List.mem_cons_self)
    exact hsome _ _ hsx hx hpx

/-- A statement that changes the tables. -/
theorem reports_execute {ok : Nat → Server → Prop} (hq : s.query? = some q)
    (ht : server.seen? = some tables)
    (hr : q.run site.scan (site.reading s) tables = .ok (result, tables'))
    (ho : ok result.affected (server.leave tables')) :
    Reports site.asking (Session.execute s) ok err broke server := by
  unfold Session.execute
  rwa [Reports.of_map, reports_send hq ht hr]

/-- A statement that brings back a row. -/
theorem reports_fetchOne {ok : Row → Server → Prop} {row : Row} {rows : List Row} {n : Nat}
    (hq : s.query? = some q) (ht : server.seen? = some tables)
    (hr : q.run site.scan (site.reading s) tables = .ok (⟨row :: rows, n⟩, tables'))
    (ho : ok row (server.leave tables')) :
    Reports site.asking (fetchOne s) ok err broke server := by
  unfold fetchOne fetchOptional fetchAll
  rw [Reports.of_bind, Reports.of_bind, Reports.of_map, reports_send hq ht hr]
  exact ho

theorem reports_fetchOne_error {ok : Row → Server → Prop} {e : SqlError} (hq : s.query? = some q)
    (ht : server.seen? = some tables)
    (hr : q.run site.scan (site.reading s) tables = .error e) (he : err e server.fail) :
    Reports site.asking (fetchOne s) ok err broke server := by
  unfold fetchOne fetchOptional fetchAll
  rwa [Reports.of_bind, Reports.of_bind, Reports.of_map, reports_send_error hq ht hr]

end

/-- Tables are read in the order of their rows, and nobody answers anything else. -/
def plain (now : Instant) : Site where
  scan := ⟨id, fun _ => .refl _⟩
  now
  others
    | .connect _ | .beginTransaction | .commit | .rollback => .ok ()
    | .statement _ => .error .rowNotFound
    | .abandon | .pause _ => ()
    | .rates (.lookup ..) => none
    | .rates (.fetch ..) => .error (.unavailable "")
    | .rates (.keep ..) => ()
    | .now => now

end Site
end Sql
end Settlement
