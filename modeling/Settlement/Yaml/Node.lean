import Settlement.Yaml.Value

/-!
YAML nodes as they are written: a node may carry a name, and an alias stands for the last node before
it of that name.
-/

namespace Settlement
namespace Yaml

inductive Node where
  | scalar (text : List Char) (plain : Bool)
  | sequence (items : List Node)
  | mapping (entries : List (Node × Node))
  | named (name : List Char) (node : Node)
  | alias (name : List Char)

namespace Node

instance : Inhabited Node := ⟨.scalar [] true⟩

def null : Node := .scalar [] true

abbrev Names := List (List Char × Yaml)

mutual
/-- The value of a node, and the names after it; none if an alias stands for nothing. -/
def resolve : Node → Names → Option (Yaml × Names)
  | .scalar text plain, names => some (.scalar text plain, names)
  | .sequence items, names => do
    let (items, names) ← resolveItems items names
    some (.sequence items, names)
  | .mapping entries, names => do
    let (entries, names) ← resolveEntries entries names
    some (.mapping entries, names)
  | .named name node, names => do
    let (v, names) ← resolve node names
    some (v, (name, v) :: names)
  | .alias name, names => do some (← names.lookup name, names)

def resolveItems : List Node → Names → Option (List Yaml × Names)
  | [], names => some ([], names)
  | node :: rest, names => do
    let (v, names) ← resolve node names
    let (vs, names) ← resolveItems rest names
    some (v :: vs, names)

def resolveEntries : List (Node × Node) → Names → Option (List (Yaml × Yaml) × Names)
  | [], names => some ([], names)
  | (key, node) :: rest, names => do
    let (k, names) ← resolve key names
    let (v, names) ← resolve node names
    let (entries, names) ← resolveEntries rest names
    some ((k, v) :: entries, names)
end

def value? (node : Node) : Option Yaml := (node.resolve []).map (·.1)

end Node
end Yaml
end Settlement
