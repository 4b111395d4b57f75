import RpcWire.Search.Service
import RpcWire.Server
import RpcWire.Settings.Environment

/-! The program: it answers searches of the built-in corpus for one caller, who writes to standard input and
reads from standard output. -/
namespace RpcWire.Main

/-- The names of the variables that settings are read from. -/
def variableNames : List String :=
  ["RTHRIFT_CONFIG", "RTHRIFT_BIND", "RTHRIFT_IDLE_TIMEOUT", "RTHRIFT_MAX_CONNECTIONS", "RTHRIFT_TRANSPORT",
    "RTHRIFT_PROTOCOL", "RTHRIFT_AUTO_DETECT"]

def environment : IO Environment := do
  let pairs ← variableNames.filterMapM fun name => do
    return (← IO.getEnv name).map fun value => (name, value)
  return fun name => pairs.lookup name

def readFile (path : String) : IO (Except IoError Bytes) := do
  try
    return .ok (← IO.FS.readBinFile path).toList
  catch err =>
    return .error ⟨.other "Other", toString err⟩

partial def readAll (input : IO.FS.Stream) (got : ByteArray) : IO ByteArray := do
  let more ← input.read 8192
  if more.isEmpty then return got
  readAll input (got ++ more)

/-- Serves the one caller, and writes the answers. -/
def serve (settings : Settings) : IO Unit := do
  let unread := (← readAll (← IO.getStdin) .empty).toList
  let processor := Processor.ofSession (Search.process Search.builtinCorpus)
  let server : Server := { settings := settings.server }
  let (handled, server) := server.start.serve processor (unread.length + 1) BufferSet.freshCapacity true { unread }
  let output ← IO.getStdout
  for part in handled.toList do
    output.write part.written.toByteArray
  output.flush
  IO.eprintln s!"Server stopped ({server.counts.total} connections, {server.counts.requests} requests)"

end RpcWire.Main

open RpcWire in
def main : IO UInt32 := do
  let environment ← Main.environment
  let content ← match environment "RTHRIFT_CONFIG" with
    | none => pure (.ok [])
    | some path => Main.readFile path
  match Settings.start environment fun _ => content with
  | .error err =>
    IO.eprintln ("Failed to load config: " ++ err.message)
    return 1
  | .ok settings =>
    Main.serve settings
    return 0
