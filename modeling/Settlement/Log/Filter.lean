import Settlement.Log.Event

/-!
Which events get a line. A filter is a list of directives; the one with the longest target that an
event's target starts with decides, and an event without one gets no line.
-/

namespace Settlement
namespace Log

/-- The gravest level that is left out, from everything to nothing. -/
inductive Threshold where
  | off
  | upTo (level : Level)
deriving DecidableEq

namespace Threshold

def admits (t : Threshold) (level : Level) : Bool :=
  match t with
  | off => false
  | upTo least => least.rank ≤ level.rank

/-- The threshold of a name in any case, or of a number: 0 leaves everything out, 5 nothing. -/
def ofName? (s : String) : Option Threshold :=
  match Digits.readNat maxNat64 s.toList with
  | .ok 0 => some off
  | .ok n => (Level.all.find? (·.rank + n == 5)).map upTo
  | .error _ =>
    if s.toUpper = "OFF" then some off else (Level.all.find? (·.name == s.toUpper)).map upTo

end Threshold

/-- A directive without a target is for all of them. -/
structure Directive where
  target : String
  threshold : Threshold
deriving DecidableEq

inductive DirectiveFault where
  | malformed
  | unknownLevel
deriving DecidableEq

def DirectiveFault.message : DirectiveFault → String
  | malformed => "invalid filter directive"
  | unknownLevel =>
    "error parsing level filter: expected one of \"off\", \"error\", \"warn\", \"info\", " ++
    "\"debug\", \"trace\", or a number 0-5"

namespace Directive

def opensTarget (c : Char) : Bool :=
  c.isAlphanum || c = '_' || c = ':' || c = '-' || 128 ≤ c.toNat

/-- A threshold for everything, a target for everything of it, or a target and its threshold. What
follows a bracket is about spans; there are none, so such a directive decides about no event. -/
def read (s : String) : Except DirectiveFault Directive :=
  let target := s.toList.takeWhile fun c => c ≠ '=' && c ≠ '['
  match target, s.toList.drop target.length with
  | _, '[' :: span => if span.contains ']' then .ok ⟨s, .upTo .trace⟩ else .error .malformed
  | [], _ => .error .malformed
  | c :: _, rest =>
    if !opensTarget c then .error .malformed
    else
      match rest with
      | [] =>
        match Threshold.ofName? s with
        | some threshold => .ok ⟨"", threshold⟩
        | none => .ok ⟨s, .upTo .trace⟩
      | [_] => .ok ⟨String.ofList target, .upTo .trace⟩
      | _ :: level =>
        match Threshold.ofName? (String.ofList level) with
        | some threshold => .ok ⟨String.ofList target, threshold⟩
        | none => .error .unknownLevel

end Directive

abbrev Filter := List Directive

namespace Filter

def parts (s : String) : List String := (s.splitOn ",").filter (!·.isEmpty)

def ofText (s : String) : Filter := (parts s).filterMap fun part => (Directive.read part).toOption

/-- All directives of a text; an empty one lets errors through. -/
def ofText? (s : String) : Option Filter := do
  let found ← (parts s).mapM fun part => (Directive.read part).toOption
  some (if found.isEmpty then [⟨"", .upTo .error⟩] else found)

def quiet : String := "sqlx=warn,hyper=warn,reqwest=warn"

def directives (level : String) : String := level ++ "," ++ quiet

/-- The filter of a level. A filter given from outside comes first, if it can be read. -/
def choose (outside : Option String) (level : String) : Filter :=
  (outside.bind ofText?).getD (ofText (directives level))

def remarks (outside : Option String) (level : String) : List String :=
  if (outside.bind ofText?).isSome then []
  else
    (parts (directives level)).filterMap fun part =>
      match Directive.read part with
      | .ok _ => none
      | .error fault => some ("ignoring \x60" ++ part ++ "\x60: " ++ fault.message)

/-- The more specific of two directives; of equal ones the later. -/
def better (a b : Directive) : Directive :=
  if a.target.utf8ByteSize ≤ b.target.utf8ByteSize then b else a

def deciding? (f : Filter) (target : String) : Option Directive :=
  (f.filter (·.target.isPrefixOf target)).foldl
    (fun best d => some (match best with | none => d | some b => better b d)) none

def admits (f : Filter) (e : Event) : Bool :=
  match f.deciding? e.target with
  | some d => d.threshold.admits e.level
  | none => false

end Filter
end Log
end Settlement
