import Concordance.CommandLine.Arguments
import Concordance.CommandLine.Commands
import Std.Time.DateTime.Timestamp

namespace Concordance.Main

open CommandLine

def fault (e : IO.Error) : FileFault :=
  match e with
  | .noFileOrDirectory .. => .notFound
  | _ => .refused

def guarded {α : Type} (act : IO α) : IO (Except FileFault α) := do
  try
    return .ok (← act)
  catch e =>
    return .error (fault e)

def perform : FileStep → IO Unit
  | .makeDir path => IO.FS.createDir path
  | .create path => do discard (IO.FS.Handle.mk path .write)
  | .append path bytes => do (← IO.FS.Handle.mk path .append).write ⟨bytes.toArray⟩
  | .sync path => do (← IO.FS.Handle.mk path .append).flush
  | .rename source target => IO.FS.rename source target
  | .remove path => IO.FS.removeFile path

def entry (directory name : String) : IO.FS.DirEntry := ⟨directory, name⟩

def read (path : String) : IO (Except FileFault Bytes) := do
  if ← (entry path "").path.isDir then return .error .directory
  else guarded do return (← IO.FS.readBinFile path).toList

def fileNames (path : String) : IO (List String) := do
  let mut names := []
  for item in ← (entry path "").path.readDir do
    if (← item.path.metadata).type matches .file then names := item.fileName :: names
  return names

def files : Files IO where
  perform step := guarded (perform step)
  read := read
  isFile path := return (← read path).isOk
  isDirectory path := (entry path "").path.isDir
  names path := guarded (fileNames path)

def now : IO Instant := do
  let nanos := (← Std.Time.Timestamp.now).toNanosecondsSinceUnixEpoch.toInt
  return ⟨nanos / Instant.nanosPerSecond, (nanos % Instant.nanosPerSecond).toNat⟩

def system : System IO := ⟨files, now, IO.monoMsNow⟩

def usage : String :=
  "Usage: concordance [SWITCHES] search RECORDS_FILE QUERY\n" ++
    "       concordance [SWITCHES] index RECORDS_FILE INDEX_DIR\n" ++
    "       concordance [SWITCHES] query INDEX_DIR QUERY\n"

def versionLine : String := "concordance 0.1.0\n"

def refusalText : Refusal → String
  | .unknownArgument => "unknown argument"
  | .noValue => "a switch wants a value"
  | .needlessValue => "a switch takes no value"
  | .unknownChoice => "a value is none of those to choose from"
  | .malformedValue => "a value is malformed"
  | .emptyPath => "a path is empty"
  | .repeated => "a switch was given twice"
  | .missingOperand => "an operand is missing"
  | .missingCommand | .nothingAsked => "a command is missing"
  | .unknownCommand => "unknown command"
  | .help => "help"
  | .version => "version"

def refuse (r : Refusal) : IO UInt32 := do
  match r with
  | .help =>
    (← IO.getStdout).putStr usage
    return 0
  | .version =>
    (← IO.getStdout).putStr versionLine
    return 0
  | _ =>
    (← IO.getStderr).putStr ("error: " ++ refusalText r ++ "\n\n" ++ usage)
    return 2

def serve (request : Request) : IO UInt32 := do
  match ← system.answer request with
  | .ok text =>
    (← IO.getStdout).putStr text
    return 0
  | .error e =>
    (← IO.getStderr).putStr ("Error: " ++ e.message ++ "\n")
    return 1

end Concordance.Main

def main (args : List String) : IO UInt32 :=
  match Concordance.CommandLine.Request.ofArguments args with
  | .error r => Concordance.Main.refuse r
  | .ok request => Concordance.Main.serve request
