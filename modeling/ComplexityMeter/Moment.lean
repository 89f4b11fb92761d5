/-!
# Dates and times of settings files

A settings file can hold dates and times. No setting takes one, so all that is kept is what a
message about a misplaced one has to say.
-/

namespace ComplexityMeter

structure Date where
  year : Nat
  month : Nat
  day : Nat
  deriving DecidableEq, Repr

structure Time where
  hour : Nat
  minute : Nat
  second : Nat
  microsecond : Nat
  deriving DecidableEq, Repr

/-- A date, a time of day, or both with an optional offset from universal time in minutes. -/
inductive Moment where
  | date (date : Date)
  | time (time : Time)
  | dateTime (date : Date) (time : Time) (offset : Option Int)
  deriving DecidableEq, Repr

namespace Moment

def padded (places n : Nat) : String :=
  let digits := toString n
  String.ofList (List.replicate (places - digits.length) '0') ++ digits

def dateText (d : Date) : String :=
  padded 4 d.year ++ "-" ++ padded 2 d.month ++ "-" ++ padded 2 d.day

def timeText (t : Time) : String :=
  padded 2 t.hour ++ ":" ++ padded 2 t.minute ++ ":" ++ padded 2 t.second
    ++ (if t.microsecond = 0 then "" else "." ++ padded 6 t.microsecond)

def offsetText (minutes : Int) : String :=
  (if minutes < 0 then "-" else "+") ++ padded 2 (minutes.natAbs / 60) ++ ":"
    ++ padded 2 (minutes.natAbs % 60)

def text : Moment → String
  | .date d => dateText d
  | .time t => timeText t
  | .dateTime d t offset => dateText d ++ " " ++ timeText t ++ (offset.map offsetText).getD ""

def kindName : Moment → String
  | .date _ => "datetime.date"
  | .time _ => "datetime.time"
  | .dateTime .. => "datetime.datetime"

/-- Parts of a time as arguments: trailing zero parts after the minute are left out. -/
def timeArguments (t : Time) : List String :=
  [toString t.hour, toString t.minute]
    ++ (if t.second = 0 ∧ t.microsecond = 0 then []
        else toString t.second
          :: (if t.microsecond = 0 then [] else [toString t.microsecond]))

def offsetArgument (minutes : Int) : String :=
  if minutes = 0 then "datetime.timezone.utc"
  else
    let days : Int := if minutes < 0 then -1 else 0
    let seconds := (minutes - days * 1440) * 60
    let delta :=
      if days < 0 then
        "days=-1, seconds=" ++ toString seconds
      else "seconds=" ++ toString seconds
    "datetime.timezone(datetime.timedelta(" ++ delta ++ "))"

def expression (m : Moment) : String :=
  let arguments :=
    match m with
    | .date d => [toString d.year, toString d.month, toString d.day]
    | .time t => timeArguments t
    | .dateTime d t offset =>
      [toString d.year, toString d.month, toString d.day] ++ timeArguments t
        ++ (offset.map fun minutes => "tzinfo=" ++ offsetArgument minutes).toList
  m.kindName ++ "(" ++ String.intercalate ", " arguments ++ ")"

end Moment

end ComplexityMeter
