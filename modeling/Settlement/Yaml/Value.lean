import Settlement.Json.Reader

/-!
YAML values: trees of texts, and the core schema by which a plain text stands for a null, a boolean or
a number.
-/

namespace Settlement

/-- A scalar keeps its text and whether it was written without quotes. -/
inductive Yaml where
  | scalar (text : List Char) (plain : Bool)
  | sequence (items : List Yaml)
  | mapping (entries : List (Yaml × Yaml))

namespace Yaml

instance : Inhabited Yaml := ⟨.scalar [] true⟩

def null : Yaml := .scalar [] true

def isNullText (cs : List Char) : Bool :=
  String.ofList cs ∈ ["", "~", "null", "Null", "NULL"]

def boolOf? (cs : List Char) : Option Bool :=
  let s := String.ofList cs
  if s ∈ ["true", "True", "TRUE"] then some true
  else if s ∈ ["false", "False", "FALSE"] then some false
  else none

/-- Several digits with a leading zero are no number. -/
def isPaddedNumber (cs : List Char) : Bool :=
  let digits := match cs with
    | '-' :: rest | '+' :: rest => rest
    | _ => cs
  match digits with
  | '0' :: rest => !rest.isEmpty && rest.all (Digits.value? · |>.isSome)
  | _ => false

def inBase? (base : Nat) (cs : List Char) : Option Nat :=
  if cs = [] then none
  else cs.foldlM (fun acc c => do
    let d ← Json.hexValue? c
    if d < base then some (acc * base + d) else none) 0

def magnitude? : List Char → Option Nat
  | '0' :: 'x' :: rest => inBase? 16 rest
  | '0' :: 'o' :: rest => inBase? 8 rest
  | '0' :: 'b' :: rest => inBase? 2 rest
  | cs => if isPaddedNumber cs then none else inBase? 10 cs

def integer? : List Char → Option Int
  | '+' :: rest => (magnitude? rest).map Int.ofNat
  | '-' :: rest => (magnitude? rest).map fun n => -Int.ofNat n
  | cs => (magnitude? cs).map Int.ofNat

def fraction? (cs : List Char) : Option Json.Number := do
  let (minus, cs) := match cs with
    | '-' :: rest => (true, rest)
    | '+' :: rest => (false, rest)
    | _ => (false, cs)
  let (whole, rest) := Json.spanDigits cs
  let (places, rest) := match rest with
    | '.' :: rest => Json.spanDigits rest
    | _ => ([], rest)
  if whole = [] ∧ places = [] then none
  let exponent ← match rest with
    | [] => some 0
    | 'e' :: rest | 'E' :: rest =>
      match Json.readExponent rest with
      | some (e, []) => some e
      | _ => none
    | _ => none
  let m := Json.natOfDigits (whole ++ places)
  let e := exponent - places.length
  if m = 0 then some (.binary minus ⟨0, Binary64.minExponent⟩)
  else if 400 < e + (whole.length + places.length : Nat) then none
  else if e + (whole.length + places.length : Nat) < -400 then
    some (.binary minus ⟨0, Binary64.minExponent⟩)
  else
    let x ← if 0 ≤ e then Binary64.nearest (m * tenTo e.toNat) 1
      else Binary64.nearest m (tenTo (-e).toNat)
    some (.binary minus x)

/-- The plain scalar by the core schema. Infinities and what is no number of any kind fall out. -/
def resolve (cs : List Char) : Json :=
  if isNullText cs then .null
  else
    match boolOf? cs with
    | some b => .bool b
    | none =>
      match integer? cs with
      | some n =>
        if 0 ≤ n ∧ n ≤ maxNat64 then .number (.natural n.toNat)
        else if n < 0 ∧ minInt64 ≤ n then .number (.negative n.natAbs)
        else .number .outOfRange
      | none =>
        if isPaddedNumber cs then .text (some (String.ofList cs))
        else
          match fraction? cs with
          | some x => .number x
          | none =>
            if String.ofList cs ∈ [".inf", ".Inf", ".INF", "+.inf", "+.Inf", "+.INF", "-.inf", "-.Inf",
                "-.INF", ".nan", ".NaN", ".NAN"] then .number .outOfRange
            else .text (some (String.ofList cs))

def toJson? : Yaml → Option Json
  | .scalar text true => some (resolve text)
  | .scalar text false => some (.text (some (String.ofList text)))
  | _ => none

def toString? : Yaml → Option String
  | .scalar text _ => some (String.ofList text)
  | _ => none

def toBool? : Yaml → Option Bool
  | .scalar text true => boolOf? text
  | _ => none

def toNatUpTo? (high : Nat) : Yaml → Option Nat
  | .scalar text true => do
    let n ← match text with
      | '-' :: _ => none
      | _ => integer? text
    if n.toNat ≤ high then some n.toNat else none
  | _ => none

def toOptionalString? : Option Yaml → Option (Option String)
  | none => some none
  | some (.scalar text true) => if isNullText text then some none else some (some (String.ofList text))
  | some v => v.toString?.map some

def entries? (names : List String) : Yaml → Option (List (Option Yaml))
  | .sequence items =>
    if items.length ≤ names.length then
      some (items.map some ++ List.replicate (names.length - items.length) none)
    else none
  | .mapping found => do
    let named ← found.mapM fun (key, v) => key.toString?.map (·, v)
    names.mapM fun name =>
      match named.filter (·.1 == name) with
      | [] => some none
      | [(_, v)] => some (some v)
      | _ => none
  | .scalar .. => none

end Yaml
end Settlement
