import ComplexityMeter.Files

/-!
# Log

A log passes records on to its outlets: the console and, if one is named, a file. Setting it up
replaces the outlets; files stay where they are and are written to at their end. A record has a
level, and the log as well as each of its outlets lets pass only what reaches a level of its own.
-/

namespace ComplexityMeter.Log

/-- Levels are numbers, so that records of levels without a name can be logged too. -/
abbrev Level := Int

def debug : Level := 10
def info : Level := 20
def warning : Level := 30
def error : Level := 40
def critical : Level := 50

/-- The level that a value gives; it must be whole. -/
def levelOf : Datum → Except Misuse Level
  | .number (.int n) => .ok n
  | .truth b => .ok (if b then 1 else 0)
  | _ => .error .fractionalLevel

def levelName (level : Level) : String :=
  if level = 0 then "NOTSET"
  else if level = debug then "DEBUG"
  else if level = info then "INFO"
  else if level = warning then "WARNING"
  else if level = error then "ERROR"
  else if level = critical then "CRITICAL"
  else "Level " ++ toString level

/-- What a set-up asks for. -/
structure Request where
  verbose : Bool
  quiet : Bool
  /-- The file to write to; an empty name is none. -/
  file : Option String
  deriving DecidableEq, Repr

/-- The level of the console: a quiet log shows errors only, a verbose one everything. -/
def Request.level (r : Request) : Level :=
  if r.quiet then error else if r.verbose then debug else warning

/-- The normal form of the path of the file. -/
def Request.file? (r : Request) : Option String :=
  (r.file.filter fun name => name ≠ "").map Path.normalize

inductive Outlet where
  | console (level : Level)
  | file (name : String) (level : Level)
  deriving DecidableEq, Repr

def Outlet.level : Outlet → Level
  | .console level | .file _ level => level

def Outlet.kindName : Outlet → String
  | .console _ => "RichHandler"
  | .file .. => "FileHandler"

/-- A record as it is logged; `logger` is empty for the log itself and otherwise the part of the
program that speaks. -/
structure Record where
  level : Level
  logger : String
  message : String
  deriving DecidableEq, Repr

def rootName : String := "complexity_insight"

def Record.loggerName (r : Record) : String :=
  if r.logger = "" then rootName else rootName ++ "." ++ r.logger

/-- The line of a record in a file, without its time. -/
def Record.line (r : Record) : String :=
  r.loggerName ++ " - " ++ levelName r.level ++ " - " ++ r.message

/-- A log with its outlets, and the lines of the files it has written. -/
structure State where
  level : Level
  /-- Whether records also go to the outlets of other programs. -/
  propagates : Bool
  outlets : List Outlet
  files : Entries (List String)

namespace State

def initial : State := ⟨0, true, [], []⟩

/-- The entries of a file, if it exists. Paths name one file when their normal forms are the same: an
absolute and a relative path count as two files, and so does a link. -/
def lines? (s : State) (name : String) : Option (List String) :=
  s.files.get? (Path.normalize name)

/-- The lines of a file; an entry goes on over as many as its message has. -/
def shownLines? (s : State) (name : String) : Option (List String) :=
  (s.lines? name).map fun entries =>
    entries.flatMap fun entry => (Text.withLineFeeds entry).splitOn "\n"

def touch (name : String) (files : Entries (List String)) : Entries (List String) :=
  files.set name ((files.get? name).getD [])

def outletsOf (r : Request) : List Outlet :=
  .console r.level :: (r.file?.map fun name => Outlet.file name debug).toList

/-- Replaces the outlets. A log with a file takes up everything. -/
def setUp (s : State) (r : Request) : State :=
  { level := if r.file?.isSome then debug else r.level
    propagates := false
    outlets := outletsOf r
    files := (r.file?.map fun name => touch name s.files).getD s.files }

def reaches (s : State) (r : Record) (o : Outlet) : Bool :=
  s.level ≤ r.level && o.level ≤ r.level

def deliver (r : Record) (files : Entries (List String)) : Outlet → Entries (List String)
  | .console _ => files
  | .file name _ => files.set name ((files.get? name).getD [] ++ [r.line])

def log (s : State) (r : Record) : State :=
  { s with files := (s.outlets.filter (s.reaches r)).foldl (deliver r) s.files }

/-- Whether a record is shown on the console. A log without outlets leaves it to the outlet of last
resort, which shows warnings and what is graver. -/
def shows (s : State) (r : Record) : Bool :=
  if s.outlets = [] then decide (warning ≤ r.level)
  else
    s.outlets.any fun o =>
      match o with
      | .console _ => s.reaches r o
      | .file .. => false

end State

/-- One step in the life of a log. -/
inductive Step where
  | setUp (request : Request)
  | log (record : Record)

def State.after (s : State) : Step → State
  | .setUp r => s.setUp r
  | .log r => s.log r

def State.showsStep (s : State) : Step → Bool
  | .setUp _ => false
  | .log r => s.shows r

/-- The states after each step, with whether the step showed something. -/
def State.history (s : State) : List Step → List (State × Bool)
  | [] => []
  | step :: rest => (s.after step, s.showsStep step) :: (s.after step).history rest

/-! ### Files that cannot be opened -/

/-- The directory in which a log writes its files, with the files written so far. -/
def State.directory (s : State) : Directory :=
  s.files.map fun entry => (Directory.place entry.1, .file [])

/-- What stands in the way of writing to a file: it is a directory, there is no directory to hold
it, or the file system takes no such name. -/
def State.obstacle? (s : State) (name : String) : Option Found :=
  let path := name.toList
  match s.directory.find name, s.directory.find (String.ofList (Path.directory path)) with
  | .file _, _ => none
  | .absent, .directory => none
  | found, _ => some found

/-- Why a step cannot be taken. -/
def State.fault? (s : State) : Step → Option Found
  | .setUp r => r.file?.bind s.obstacle?
  | .log _ => none

/-- The states after each step, unless one of the steps cannot be taken. A set-up that cannot open its
file leaves a log with the new console at the old level, of which nothing is said here. -/
def State.checkedHistory (s : State) : List Step → Except Found (List (State × Bool))
  | [] => .ok []
  | step :: rest =>
    match s.fault? step with
    | some found => .error found
    | none =>
      ((s.after step).checkedHistory rest).map fun states =>
        (s.after step, s.showsStep step) :: states

end ComplexityMeter.Log
