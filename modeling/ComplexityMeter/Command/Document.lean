import ComplexityMeter.Graph.Survey
import ComplexityMeter.Metrics.Report

/-!
# Documents for other programs

What commands tell other programs: tables of values under fixed names.
-/

namespace ComplexityMeter.Command

open Metrics (BreakdownLine Category Hotspot Record Verdict)
open Score (Summary)

def countDatum (n : Nat) : Datum :=
  .number (.int n)

def hotspotDatum (h : Hotspot Number) : Datum :=
  .table [("node_kind", .text h.kind), ("line", .number (.int h.line)),
    ("score", .number h.score), ("reason", .text h.reason.text)]

def recordDatum (m : Record Number) : Datum :=
  .table (("total_score", .number m.total)
    :: Category.all.map (fun c => (c.name, .number (m.score c)))
    ++ [("hotspots", .list (m.hotspots.map hotspotDatum))])

def breakdownDatum (lines : List (BreakdownLine Number)) : Datum :=
  .table (lines.map fun line =>
    (line.category.name,
      .table [("value", .number line.value), ("weighted_score", .number line.weighted)]))

def treeDatum (summary : Summary Number) (hotspotCount : Nat) : Datum :=
  .table [("score", .number summary.total), ("node_count", countDatum summary.nodeCount),
    ("max_depth", countDatum summary.height), ("median_score", .number summary.median),
    ("p90_score", .number summary.ninetieth), ("hotspot_count", countDatum hotspotCount)]

def verdictName : Verdict → String
  | .first => "A"
  | .second => "B"
  | .neither => "NEITHER"

def rowDatum (r : Graph.Row Number) : Datum :=
  .table [("path", .text r.path), ("file_complexity", .number r.fileScore),
    ("module_complexity", .number r.total), ("dependencies", .list (r.dependencies.map .text))]

end ComplexityMeter.Command
