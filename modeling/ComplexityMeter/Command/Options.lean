/-!
# Options on a command line

Options may stand anywhere among the arguments. A long option has two hyphens and may carry its
value after an equals sign; several short ones may share one hyphen, and a value may follow
directly. After two hyphens alone everything is an argument.
-/

namespace ComplexityMeter.Command

/-- An option by its names. -/
structure OptionSpec where
  long : String
  short : Option Char
  takesValue : Bool
  deriving DecidableEq, Repr

/-- An option that is set, with its value if it takes one. -/
structure Setting where
  option : String
  value : Option String
  deriving DecidableEq, Repr

/-- A command line taken apart. -/
structure Scanned where
  settings : List Setting
  arguments : List String
  deriving DecidableEq, Repr

namespace Scanned

def withSettings (settings : List Setting) (s : Scanned) : Scanned :=
  { s with settings := settings ++ s.settings }

def withArgument (argument : String) (s : Scanned) : Scanned :=
  { s with arguments := argument :: s.arguments }

def has (s : Scanned) (option : String) : Bool :=
  s.settings.any fun setting => setting.option = option

/-- The value that an option is given last. -/
def value? (s : Scanned) (option : String) : Option String :=
  (s.settings.reverse.find? fun setting => setting.option = option).bind Setting.value

end Scanned

/-- What one word of a command line sets. -/
inductive WordReading where
  | settings (settings : List Setting)
  /-- The value of the last option is the next word. -/
  | needsValue (settings : List Setting) (option : String)
  | unknown
  deriving DecidableEq, Repr

def readLong (specs : List OptionSpec) (cs : List Char) : WordReading :=
  let name := String.ofList (cs.takeWhile (· ≠ '='))
  match specs.find? fun spec => spec.long = name, cs.dropWhile (· ≠ '=') with
  | none, _ => .unknown
  | some spec, [] =>
    if spec.takesValue then .needsValue [] spec.long else .settings [⟨spec.long, none⟩]
  | some spec, _ :: value =>
    if spec.takesValue then .settings [⟨spec.long, some (String.ofList value)⟩] else .unknown

def readShort (specs : List OptionSpec) : List Char → WordReading
  | [] => .settings []
  | c :: rest =>
    match specs.find? fun spec => spec.short = some c with
    | none => .unknown
    | some spec =>
      if spec.takesValue then
        if rest.isEmpty then .needsValue [] spec.long
        else .settings [⟨spec.long, some (String.ofList rest)⟩]
      else
        match readShort specs rest with
        | .settings more => .settings (⟨spec.long, none⟩ :: more)
        | .needsValue more option => .needsValue (⟨spec.long, none⟩ :: more) option
        | .unknown => .unknown

def readWord (specs : List OptionSpec) (word : List Char) : WordReading :=
  match word with
  | '-' :: '-' :: rest => readLong specs rest
  | _ :: rest => readShort specs rest
  | [] => .unknown

def isOptionWord (word : String) : Bool :=
  match word.toList with
  | '-' :: _ :: _ => true
  | _ => false

/-- Takes a command line apart; nothing results from an unknown option or a missing value. Unless
options may stand anywhere, the first argument ends them. -/
def scan (anywhere : Bool) (specs : List OptionSpec) : List String → Option Scanned
  | [] => some ⟨[], []⟩
  | word :: rest =>
    if word = "--" then some ⟨[], rest⟩
    else if isOptionWord word then
      match readWord specs word.toList with
      | .unknown => none
      | .settings settings => (scan anywhere specs rest).map (Scanned.withSettings settings)
      | .needsValue settings option =>
        match rest with
        | [] => none
        | value :: rest =>
          (scan anywhere specs rest).map
            (Scanned.withSettings (settings ++ [⟨option, some value⟩]))
    else if anywhere then (scan anywhere specs rest).map (Scanned.withArgument word)
    else some ⟨[], word :: rest⟩

end ComplexityMeter.Command
