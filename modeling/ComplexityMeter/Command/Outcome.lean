import ComplexityMeter.Command.Console
import ComplexityMeter.Failure
import ComplexityMeter.Json.Writer

/-!
# Outcomes of a command

A command prints one thing after the other and ends with a status. It breaks off with the status one
at the first thing that cannot be printed, and with a failure that it does not report.
-/

namespace ComplexityMeter.Command

/-- Something that a command prints. -/
inductive Print where
  /-- A marked-up line. -/
  | line (markup : String)
  /-- A marked-up line that is not broken, whatever its width. -/
  | unbroken (markup : String)
  /-- A line without marks. -/
  | plain (text : String)
  | table (table : Table)
  | screen (screen : Screen)
  /-- Values for other programs. -/
  | document (value : Datum)
  /-- A marked-up line for the error output. -/
  | problem (markup : String)
  /-- The failure in place of something that cannot be made. -/
  | failure (failure : Failure)

/-- What a command breaks off with. -/
inductive Escape where
  | failure (failure : Failure)
  /-- Of the console. -/
  | refusal (refusal : Refusal)

/-- What a command leaves behind. -/
structure Outcome where
  status : Nat
  output : String
  errors : String
  escape? : Option Escape

namespace Outcome

def empty : Outcome := ⟨0, "", "", none⟩

def addLine (o : Outcome) (text : String) : Outcome :=
  { o with output := o.output ++ text ++ "\n" }

def addProblem (o : Outcome) (text : String) : Outcome :=
  { o with errors := o.errors ++ text ++ "\n" }

section

variable (console : Console)

def print (o : Outcome) : Print → Except Escape Outcome
  | .line markup => ((console.marked markup).mapError .refusal).map o.addLine
  | .unbroken markup => ((console.unbroken markup).mapError .refusal).map o.addLine
  | .plain text => .ok (o.addLine (console.plain text))
  | .table table => ((console.table table).mapError .refusal).map o.addLine
  | .screen screen => .ok (o.addLine (console.screen screen))
  | .document value => .ok (o.addLine (Json.writeIndented value))
  | .problem markup => ((console.marked markup).mapError .refusal).map o.addProblem
  | .failure failure => .error (.failure failure)

/-- Prints everything and ends with a status. -/
def ofPrints (status : Nat) : List Print → Outcome → Outcome
  | [], o => { o with status }
  | first :: rest, o =>
    match o.print console first with
    | .ok o => ofPrints status rest o
    | .error escape => { o with status := 1, escape? := some escape }

end

end Outcome

end ComplexityMeter.Command
