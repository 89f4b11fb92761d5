import ComplexityMeter.Command.Run
import ComplexityMeter.Json.Reader
import ComplexityMeter.Syntax.Record
import ComplexityMeter.Terminal

/-!
# The command line

Reads what a command line refers to, runs it and prints its outcome. Concrete trees are taken from
records: the tree of a source file stands beside it, in a file whose name adds an ending.
-/

namespace ComplexityMeter.CommandLine

open Syntax (Language Node RecordedSource)

/-- The ending that is added to the name of a source file. -/
def recordEnding : String := ".tree.json"

def contentAt (path : String) : IO (Option Content) := do
  try
    let bytes ← IO.FS.readBinFile path
    return some (.file (Text.Utf8.octets bytes))
  catch e =>
    match e with
    | .inappropriateType .. | .illegalOperation .. => return some .directory
    | _ => return none

/-- The paths that lead to a path, from the shortest one. -/
def waysTo (path : String) : List String :=
  let names := Path.names path.toList
  let start := Path.rootText path.toList
  (List.range names.length).map fun i =>
    String.ofList (start ++ Path.join (names.take (i + 1)))

def entriesAt (words : List String) : IO Directory := do
  let entries ← (words.flatMap waysTo).mapM fun path => do
    return (← contentAt path).map fun content => (Directory.place path, content)
  return entries.filterMap id

def environment : IO (Entries String) := do
  let entries ← Config.Field.all.mapM fun f => do
    return (← IO.getEnv f.variableName).map fun value => (f.variableName, value)
  return entries.filterMap id

def homeEntries : IO Directory := do
  match ← IO.getEnv "HOME" with
  | none => return []
  | some home =>
    return (← contentAt (home ++ "/" ++ Config.homeFile)).toList.map fun content =>
      (Directory.place Config.homeFile, content)

/-- The source at a path with its recorded tree. -/
def recordedSource? (working : Directory) (path : String) : IO (Option RecordedSource) := do
  match Files.readSource ⟨[], working⟩ path, ← contentAt (path ++ recordEnding) with
  | .ok code, some (.file octets) =>
    return do
      let text ← (Text.Utf8.decode? octets).toOption
      let root ← Node.ofRecord? code (← Json.read? text)
      return ⟨Language.ofPath path, code, root⟩
  | _, _ => return none

def runIn (arguments : List String) : IO Command.Outcome := do
  let working ← entriesAt (Config.projectFile :: arguments)
  let files : Files := ⟨← homeEntries, working⟩
  let sources ← (arguments.map Path.tidy).mapM (recordedSource? working)
  let parser := Syntax.recordedParser (sources.filterMap id)
  return Command.runLine Terminal.console parser ⟨files, ← environment⟩ arguments

end ComplexityMeter.CommandLine

open ComplexityMeter in
/-- Prints what a command line leaves behind and ends with its status. -/
def main (arguments : List String) : IO UInt32 := do
  let outcome ← CommandLine.runIn arguments
  IO.print outcome.output
  IO.eprint outcome.errors
  return outcome.status.toUInt32
