import Settlement.Log.Filter

/-!
Where lines go. A log file is named after its period; in JSON form there is only the file, in text form
standard output gets the same lines.
-/

namespace Settlement
namespace Log

inductive Rotation where
  | minutely | hourly | daily | never
deriving DecidableEq, Repr

namespace Rotation

def ofName : String → Rotation
  | "minutely" => minutely
  | "hourly" => hourly
  | "daily" => daily
  | _ => never

/-- The date in the name of a file, down to the period, with `#` for each digit. -/
def date : Rotation → String
  | minutely => "####-##-##-##-##"
  | hourly => "####-##-##-##"
  | daily | never => "####-##-##"

def fileName (r : Rotation) (name : String) : String :=
  if name.isEmpty then r.date
  else if r = never then name
  else name ++ "." ++ r.date

end Rotation

def lines (f : Filter) (useJson : Bool) (events : List Event) : List Json :=
  (events.filter f.admits).map fun e => if useJson then e.json else .str e.line

def visible (f : Filter) (useJson : Bool) (events : List Event) : List Json :=
  if useJson then [] else lines f useJson events

end Log
end Settlement
