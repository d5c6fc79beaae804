import Settlement.Daemon
import Settlement.Sql.Encoding

/-!
The command line: the daemon over a database whose replies stand on standard input, one in JSON per
line.
-/

namespace Settlement
namespace CommandLine

partial def readLines (input : IO.FS.Stream) (before : List String) : IO (List String) := do
  let line ← input.getLine
  if line.isEmpty then return before.reverse else readLines input (line :: before)

def readFile? (path : String) : IO (Option String) := do
  try return some (← IO.FS.readFile path)
  catch _ => return none

/-- The replies of a script; blank lines and lines that are no reply are passed over. -/
def replies (lines : List String) : List Sql.Reply :=
  lines.filterMap fun line => (Json.ofText? line).bind Sql.Reply.ofJson?

def run (args : List String) : IO UInt32 := do
  let script := replies (← readLines (← IO.getStdin) [])
  let text ← readFile? (Config.path (Daemon.environment args))
  let filter ← IO.getEnv "LOG_FILTER"
  let output := Daemon.run { args, file := fun _ => text, filter, revision := "unknown" }
    { replies := script }
  for line in output.visible do
    IO.println (line.toString?.getD line.render)
  for line in output.errors do
    IO.eprintln line
  return output.code.toUInt32

end CommandLine
end Settlement

def main (args : List String) : IO UInt32 := Settlement.CommandLine.run args
