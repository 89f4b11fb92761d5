import ComplexityMeter.Command.Help
import ComplexityMeter.Command.Options
import ComplexityMeter.Files
import ComplexityMeter.Text.Numeral

/-!
# Invocations

What a command line asks for: one of four commands with its files and options, the version, or
help. A command line that asks for nothing of the kind is a usage error.
-/

namespace ComplexityMeter.Command

/-- What all commands can be told. -/
structure Common where
  json : Bool
  verbose : Bool
  config : Option String
  deriving DecidableEq, Repr

inductive Invocation where
  | version
  | help (topic : Topic)
  | analyze (files : List String) (hotspots : Nat) (simple : Bool) (common : Common)
  | compare (first second : String) (common : Common)
  | report (files : List String) (hotspots : Bool) (common : Common)
  | module (files : List String) (common : Common)
  deriving DecidableEq, Repr

def helpOption : OptionSpec := ⟨"help", none, false⟩

def commonOptions : List OptionSpec :=
  [⟨"json", none, false⟩, ⟨"verbose", some 'v', false⟩, ⟨"config", some 'c', true⟩, helpOption]

def analyzeOptions : List OptionSpec :=
  [⟨"hotspot", some 'n', true⟩, ⟨"simple", none, false⟩] ++ commonOptions

def reportOptions : List OptionSpec :=
  ⟨"hotspot", none, false⟩ :: commonOptions

/-- A configuration file must exist and be no directory. -/
def acceptsConfig (files : Files) : Option String → Bool
  | none => true
  | some path =>
    match files.working.find path with
    | .file _ => path.toList.getLast? ≠ some '/'
    | _ => false

def commonOf (files : Files) (s : Scanned) : Option Common :=
  let config := s.value? "config"
  if acceptsConfig files config then
    some ⟨s.has "json", s.has "verbose", config.map Path.tidy⟩
  else none

/-- The count of an option that must not be negative; zero if it is not set. -/
def countOf (s : Scanned) (option : String) : Option Nat :=
  match s.value? option with
  | none => some 0
  | some text =>
    match Text.whole? text with
    | .ok (.ofNat n) => some n
    | _ => none

def analyzeOf (files : Files) (s : Scanned) : Option Invocation := do
  let count ← countOf s "hotspot"
  let common ← commonOf files s
  if s.arguments.isEmpty then none
  else some (.analyze (s.arguments.map Path.tidy) count (s.has "simple") common)

def compareOf (files : Files) (s : Scanned) : Option Invocation := do
  let common ← commonOf files s
  match s.arguments with
  | [first, second] => some (.compare (Path.tidy first) (Path.tidy second) common)
  | _ => none

def reportOf (files : Files) (s : Scanned) : Option Invocation := do
  let common ← commonOf files s
  if s.arguments.isEmpty then none
  else some (.report (s.arguments.map Path.tidy) (s.has "hotspot") common)

def moduleOf (files : Files) (s : Scanned) : Option Invocation := do
  let common ← commonOf files s
  if s.arguments.isEmpty then none
  else some (.module (s.arguments.map Path.tidy) common)

/-- The invocation of a command; asking for help overrides everything else that can be read. -/
def readCommand (topic : Topic) (specs : List OptionSpec)
    (invocationOf : Scanned → Option Invocation) (arguments : List String) :
    Option Invocation := do
  let scanned ← scan true specs arguments
  if scanned.has "help" then some (.help topic) else invocationOf scanned

/-- What a command line asks for; nothing if it is a usage error. -/
def invocation? (files : Files) (arguments : List String) : Option Invocation := do
  let scanned ← scan false [⟨"version", none, false⟩, helpOption] arguments
  match scanned.settings.head? with
  | some setting => some (if setting.option = "version" then .version else .help .program)
  | none =>
    match scanned.arguments with
    | [] => none
    | name :: rest =>
      if name = "analyze" then readCommand .analyze analyzeOptions (analyzeOf files) rest
      else if name = "compare" then readCommand .compare commonOptions (compareOf files) rest
      else if name = "report" then readCommand .report reportOptions (reportOf files) rest
      else if name = "module" then readCommand .module commonOptions (moduleOf files) rest
      else none

end ComplexityMeter.Command
