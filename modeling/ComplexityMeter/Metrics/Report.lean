import ComplexityMeter.Metrics.Comparison
import ComplexityMeter.Score.Summary

/-!
# Reports on metrics

The metrics of a snippet, its hotspots and comparisons as Markdown texts. Scores have two decimal
places, scores inside a reason one.
-/

namespace ComplexityMeter.Metrics

open Syntax (Parser)

def Reason.text : Reason Number → String
  | .reassigned name count =>
    "let variable '" ++ name ++ "' is reassigned " ++ toString count ++ " times"
  | .crowdedScope symbols => toString symbols ++ " symbols declared in one scope"
  | .condition score => "condition complexity is " ++ score.fixed 1
  | .manyCases count => "switch has " ++ toString count ++ " cases"
  | .function score => "function complexity is high (score: " ++ score.fixed 1 ++ ")"
  | .guarded score => "try/catch block complexity is high (score: " ++ score.fixed 1 ++ ")"
  | .other text => text

/-- The first items as far as a limit goes; no limit and the limit zero keep all. -/
def limited {β : Type} (limit : Option Int) (items : List β) : List β :=
  match limit with
  | none => items
  | some count => if count = 0 then items else Score.takeUpTo count items

def joinLines (lines : List String) : String :=
  String.intercalate "\n" lines

def hotspotLines (number : Nat) (h : Hotspot Number) : List String :=
  [toString number ++ ". **" ++ h.kind ++ "** (line " ++ toString h.line ++ "): score "
      ++ h.score.fixed 2,
    "   Reason: " ++ h.reason.text,
    ""]

/-- The hotspots of a record, at most so many as the limit says. -/
def hotspotText (limit : Option Int) (m : Record Number) : String :=
  match limited limit m.hotspots with
  | [] => "No hotspots found."
  | spots =>
    joinLines (["## Complexity hotspots", ""]
      ++ (spots.zipIdx 1).flatMap fun (spot, number) => hotspotLines number spot)

def hotspotReport (limit : Option Int) (m : Record Number) : Except Failure String := do
  Failure.checkDoubles ((limited limit m.hotspots).map Hotspot.score)
  return hotspotText limit m

def metricsText (weights : Weights Number) (m : Record Number) : String :=
  let lines := (breakdown weights m).map fun line =>
    "- **" ++ line.category.label ++ "**: " ++ line.value.fixed 2 ++ " (weighted: "
      ++ line.weighted.fixed 2 ++ ")"
  joinLines (["## Complexity metrics", "",
    "Overall score: **" ++ (scalar weights m).fixed 2 ++ "**", "", "### Breakdown", ""] ++ lines)
    ++ "\n"

/-- The weighted score and all categories, unless a number cannot be written. -/
def metricsReport (weights : Weights Number) (m : Record Number) : Except Failure String := do
  Failure.checkDoubles (scalar weights m
    :: (breakdown weights m).flatMap fun line => [line.value, line.weighted])
  return metricsText weights m

def verdictSentence (firstName secondName : String) : Verdict → String
  | .first => "**Result**: " ++ firstName ++ " is less complex."
  | .second => "**Result**: " ++ secondName ++ " is less complex."
  | .neither => "**Result**: both snippets are equally complex."

def dashes (name : String) : String :=
  String.ofList (List.replicate name.length '-')

def comparisonText (firstName secondName : String) (c : Comparison Number) : String :=
  let rows := Category.all.map fun category =>
    "| " ++ category.label ++ " | " ++ (c.first.score category).fixed 2 ++ " | "
      ++ (c.second.score category).fixed 2 ++ " |"
  joinLines (["## " ++ firstName ++ " vs " ++ secondName, "",
    firstName ++ " score: **" ++ c.firstScalar.fixed 2 ++ "**",
    secondName ++ " score: **" ++ c.secondScalar.fixed 2 ++ "**", "",
    verdictSentence firstName secondName c.verdict, "", "### Details", "",
    "| Metric | " ++ firstName ++ " | " ++ secondName ++ " |",
    "|--------|" ++ dashes firstName ++ "|" ++ dashes secondName ++ "|"] ++ rows) ++ "\n"

def comparisonReport (firstName secondName : String) (c : Comparison Number) :
    Except Failure String := do
  Failure.checkDoubles (c.firstScalar :: c.secondScalar
    :: Category.all.flatMap fun category => [c.first.score category, c.second.score category])
  return comparisonText firstName secondName c

/-- Everything about one snippet. -/
structure DetailedReport where
  metrics : Record Number
  scalar : Number
  breakdown : List (BreakdownLine Number)
  hotspots : List (Hotspot Number)

def detailedReport (weights : Weights Number) (m : Record Number) : DetailedReport :=
  ⟨m, scalar weights m, breakdown weights m, m.hotspots⟩

end ComplexityMeter.Metrics
