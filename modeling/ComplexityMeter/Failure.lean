import ComplexityMeter.Value

/-!
# Failures

What can go wrong in an analysis, with the text that reports it. A failure has a summary and named
details; its message is the summary followed by the details in parentheses. A value of the wrong
kind, or an argument that nothing takes, is a misuse.
-/

namespace ComplexityMeter

/-- A value or argument where it has no meaning. -/
inductive Misuse where
  /-- A record has no field of this name; `self` is the name of the record itself. -/
  | unknownField (record field : String)
  /-- Values of these kinds have no order. -/
  | unordered (relation left right : String)
  /-- Nothing can be searched for in a value of this kind. -/
  | unsearchable (kind : String)
  /-- A sequence of this kind cannot be multiplied by a fractional number. -/
  | repeatedFractionally
  /-- A number cannot be multiplied by a value of this kind. -/
  | unmultipliable (number kind : String)
  /-- A value of this kind cannot be added to a number. -/
  | unaddable (number kind : String)
  /-- Arguments that a kind of failure needs are missing. -/
  | missingArguments (owner : String) (names : List String)
  /-- A kind of failure got too many arguments; the counts include the failure itself. -/
  | surplusArguments (owner : String) (least most given : Nat)
  /-- A value of this kind is no sequence of names. -/
  | notJoined
  /-- An item of a sequence of names is of this kind. -/
  | itemNotText (position : Nat) (kind : String)
  /-- A count is no whole number. -/
  | fractionalCount
  /-- A level is no whole number. -/
  | fractionalLevel
  /-- A message is of this kind and no text. -/
  | messageNotText (kind : String)
  /-- A value of this kind cannot go on a text. -/
  | notAppended (kind : String)
  /-- A value of this kind has no part of this name. -/
  | noAttribute (kind part : String)
  deriving DecidableEq, Repr

namespace Misuse

/-- Names in a sentence: quoted, with `and` before the last. -/
def listed (names : List String) : String :=
  match names.map fun name => "'" ++ name ++ "'" with
  | [] => ""
  | [one] => one
  | [one, two] => one ++ " and " ++ two
  | several => String.intercalate ", " several.dropLast ++ ", and " ++ several.getLastD ""

def message : Misuse → String
  | .unknownField record field =>
    record ++ ".__init__() got "
      ++ (if field = "self" then "multiple values for argument '"
          else "an unexpected keyword argument '")
      ++ field ++ "'"
  | .unordered relation left right =>
    "'" ++ relation ++ "' not supported between instances of '" ++ left ++ "' and '" ++ right
      ++ "'"
  | .unsearchable kind => "argument of type '" ++ kind ++ "' is not iterable"
  | .repeatedFractionally => "can't multiply sequence by non-int of type 'float'"
  | .unmultipliable number kind =>
    "unsupported operand type(s) for *: '" ++ number ++ "' and '" ++ kind ++ "'"
  | .unaddable number kind =>
    "unsupported operand type(s) for +: '" ++ number ++ "' and '" ++ kind ++ "'"
  | .missingArguments owner names =>
    owner ++ ".__init__() missing " ++ toString names.length ++ " required positional argument"
      ++ (if names.length = 1 then "" else "s") ++ ": " ++ listed names
  | .surplusArguments owner least most given =>
    owner ++ ".__init__() takes "
      ++ (if least = most then toString most
          else "from " ++ toString least ++ " to " ++ toString most)
      ++ " positional arguments but " ++ toString given ++ " were given"
  | .notJoined => "can only join an iterable"
  | .itemNotText position kind =>
    "sequence item " ++ toString position ++ ": expected str instance, " ++ kind ++ " found"
  | .fractionalCount => "slice indices must be integers or None or have an __index__ method"
  | .fractionalLevel => "level must be an integer"
  | .messageNotText kind => "__str__ returned non-string (type " ++ kind ++ ")"
  | .notAppended kind => "can only concatenate str (not \"" ++ kind ++ "\") to str"
  | .noAttribute kind part => "'" ++ kind ++ "' object has no attribute '" ++ part ++ "'"

end Misuse

inductive Failure where
  /-- A failure of no further kind. -/
  | general (summary : String) (details : Entries String)
  | fileAccess (path reason : String)
  | parsing (file language reason : String)
  | unsupportedLanguage (language : String) (supported : List String)
  | invalidSetting (key value reason : String)
  | misuse (cause : Misuse)
  /-- An infinite or undefined number has no nearest integer. -/
  | notFinite (x : Number)
  /-- A whole number has no nearest double where one is needed. -/
  | tooLarge
  /-- A value would have to be repeated more often than there is room for. -/
  | noRoom
  /-- A path holds a character that no path can have. -/
  | unusablePath
  /-- A path is too long to be looked up. -/
  | longPath
  /-- A whole number has too many digits to be shown in a message. -/
  | longNumeral

namespace Failure

/-- The integer nearest to a number, a half going to the even neighbour. -/
def rounded (x : Number) : Except Failure Int :=
  if x.isFinite then .ok x.round else .error (.notFinite x)

/-- Refuses numbers without a nearest double: no text with decimal places can show them. -/
def checkDoubles (numbers : List Number) : Except Failure Unit :=
  if numbers.all fun x => x.double?.isSome then .ok () else .error .tooLarge

def checkValues (numbers : List Number) : Except Failure Unit :=
  if numbers.all Number.hasValue then .ok () else .error .tooLarge

/-- Refuses the value of a setting. There is no message about a value that none can show. -/
def ofSetting (key : String) (value : Datum) (reason : String) : Failure :=
  if value.isWritable then .invalidSetting key value.shown reason else .longNumeral

def summary : Failure → String
  | .general summary _ => summary
  | .fileAccess path _ => "Cannot access file: " ++ path
  | .parsing file language _ => "Failed to parse " ++ language ++ " source: " ++ file
  | .unsupportedLanguage language _ => "Unsupported language: " ++ language
  | .invalidSetting key value _ => "Invalid configuration for " ++ key ++ ": " ++ value
  | .misuse cause => cause.message
  | .notFinite x =>
    "cannot convert float " ++ (if x.isNaN then "NaN" else "infinity") ++ " to integer"
  | .tooLarge => "int too large to convert to float"
  | .noRoom => "out of memory"
  | .unusablePath => "embedded null byte"
  | .longPath => "File name too long"
  | .longNumeral =>
    "Exceeds the limit (" ++ toString Text.wholeDigitLimit
      ++ " digits) for integer string conversion; use sys.set_int_max_str_digits() to increase the"
      ++ " limit"

def details : Failure → Entries String
  | .general _ details => details
  | .fileAccess path reason => [("filepath", path), ("reason", reason)]
  | .parsing file language reason =>
    [("filepath", file), ("language", language), ("reason", reason)]
  | .unsupportedLanguage language supported =>
    [("language", language), ("supported", String.intercalate ", " supported)]
  | .invalidSetting key value reason =>
    [("key", key), ("value", value), ("reason", reason)]
  | .misuse _ | .notFinite _ | .tooLarge | .noRoom | .unusablePath | .longPath | .longNumeral => []

def message (failure : Failure) : String :=
  match failure.details with
  | [] => failure.summary
  | details =>
    failure.summary ++ " ("
      ++ String.intercalate ", " (details.map fun detail => detail.1 ++ "=" ++ detail.2) ++ ")"

end Failure

end ComplexityMeter
