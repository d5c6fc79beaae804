import Settlement.Service.Categories

/-!
Categories in memory, in the order of their creation. The global ones come first.
-/

namespace Settlement

structure CategoryTable where
  rows : List Category := []
deriving DecidableEq

namespace CategoryTable

def defaults : CategoryTable :=
  ⟨Category.defaultNames.zipIdx.map fun (name, i) => ⟨i + 1, none, name⟩⟩

def row? (t : CategoryTable) (id : CategoryId) : Option Category := t.rows.find? (·.id == id)

def globalByName? (t : CategoryTable) (name : String) : Option Category :=
  t.rows.find? fun c => c.isGlobal && c.name == name

def listForUser (t : CategoryTable) (user : UserId) : List Category :=
  t.rows.filter (·.usableBy user)

def nextId (t : CategoryTable) : CategoryId :=
  match t.rows.map (·.id) with
  | [] => 1
  | id :: ids => ids.foldl max id + 1

def insert (t : CategoryTable) (user : UserId) (name : String) : Option Category × CategoryTable :=
  if t.rows.any fun c => c.owner == some user && c.name == name then (none, t)
  else
    let category : Category := ⟨t.nextId, some user, name⟩
    (some category, ⟨t.rows ++ [category]⟩)

def answer : (call : CategoryCall) → CategoryTable → Flow.Outcome call.Answer × CategoryTable
  | .find id, t => (.value (.ok (t.row? id)), t)
  | .listForUser user, t => (.value (.ok (t.listForUser user)), t)
  | .insert user name, t =>
    let (created, t) := t.insert user name
    (.value (.ok created), t)

end CategoryTable
end Settlement
