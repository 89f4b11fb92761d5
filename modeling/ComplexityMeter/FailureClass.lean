import ComplexityMeter.Failure

/-!
# Classes of failures

Failures form a hierarchy: below the general class stand the analysis failures and the
configuration failures, and below those the particular ones. A failure of a class is built from
arguments of any kind, which stand in its texts as a message shows them.
-/

namespace ComplexityMeter

inductive FailureClass where
  | general
  | analysis
  | fileAccess
  | parsing
  | unsupportedLanguage
  | configuration
  | invalidSetting
  deriving DecidableEq, Repr

namespace FailureClass

def all : List FailureClass :=
  [.general, .analysis, .fileAccess, .parsing, .unsupportedLanguage, .configuration,
    .invalidSetting]

def name : FailureClass → String
  | .general => "ComplexityInsightError"
  | .analysis => "AnalysisError"
  | .fileAccess => "FileAccessError"
  | .parsing => "ParsingError"
  | .unsupportedLanguage => "UnsupportedLanguageError"
  | .configuration => "ConfigurationError"
  | .invalidSetting => "InvalidConfigError"

def ofName? (name : String) : Option FailureClass :=
  all.find? fun c => c.name = name

def ancestors : FailureClass → List FailureClass
  | .general => []
  | .analysis | .configuration => [.general]
  | .fileAccess | .parsing | .unsupportedLanguage => [.analysis, .general]
  | .invalidSetting => [.configuration, .general]

/-- The class that lays down the arguments of a class. -/
def owner : FailureClass → FailureClass
  | .analysis | .configuration => .general
  | c => c

/-- The arguments of a class: those it needs, then those it can do without. -/
def parameters : FailureClass → List String × List String
  | .fileAccess => (["filepath", "reason"], [])
  | .parsing => (["filepath", "language", "reason"], [])
  | .unsupportedLanguage => (["language", "supported_languages"], [])
  | .invalidSetting => (["key", "value", "reason"], [])
  | .general | .analysis | .configuration => (["message"], ["details"])

/-- Refuses a wrong number of arguments; the failure itself counts as one. -/
def checkArguments (c : FailureClass) (count : Nat) : Except Misuse Unit :=
  let (needed, optional) := c.parameters
  if count < needed.length then .error (.missingArguments c.owner.name (needed.drop count))
  else if needed.length + optional.length < count then
    .error (.surplusArguments c.owner.name (needed.length + 1)
      (needed.length + optional.length + 1) (count + 1))
  else .ok ()

/-- The names in a sequence of names; a text is the sequence of its characters. -/
def nameSequence : Datum → Except Misuse (List String)
  | .text s => .ok (s.toList.map fun c => String.ofList [c])
  | .list items => go 0 items
  | .table entries => .ok (entries.map Prod.fst)
  | _ => .error .notJoined
where
  go (position : Nat) : List Datum → Except Misuse (List String)
    | [] => .ok []
    | .text s :: rest => (go (position + 1) rest).map (s :: ·)
    | other :: _ => .error (.itemNotText position other.kindName)

/-- The details of a general failure; a value that counts as false stands for none. -/
def detailTexts (value : Datum) : Except Misuse (Entries String) :=
  match value with
  | .table entries => .ok (entries.map fun entry => (entry.1, entry.2.shown))
  | other => if other.isTruthy then .error (.noAttribute other.kindName "items") else .ok []

/-- A general failure. Without details its message is shown alone, and then it must be a text. -/
def generalFailure (summary details : Datum) : Except Misuse Failure := do
  match summary, ← detailTexts details with
  | .text s, texts => return .general s texts
  | other, [] => throw (.messageNotText other.kindName)
  | other, texts => return .general other.shown texts

def make (c : FailureClass) (arguments : List Datum) : Except Misuse Failure := do
  c.checkArguments arguments.length
  match c, arguments with
  | .fileAccess, [path, reason] => return .fileAccess path.shown reason.shown
  | .parsing, [file, language, reason] =>
    return .parsing file.shown language.shown reason.shown
  | .unsupportedLanguage, [language, supported] =>
    return .unsupportedLanguage language.shown (← nameSequence supported)
  | .invalidSetting, [key, value, reason] =>
    return .invalidSetting key.shown value.shown reason.shown
  | _, summary :: rest => generalFailure summary (rest.headD .null)
  | _, [] => return .general "" []

end FailureClass

end ComplexityMeter
