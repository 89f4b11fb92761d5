/-!
# Help

What the program says about itself and its commands: how they are called, what they do, and their
arguments and options.
-/

namespace ComplexityMeter.Command

/-- What help can be asked about. -/
inductive Topic where
  | program
  | analyze
  | compare
  | report
  | module
  deriving DecidableEq, Repr

/-- An argument that must be given. -/
structure ArgumentHelp where
  name : String
  value : String
  text : String

structure OptionHelp where
  long : String
  short : String
  value : String
  text : String

/-- Everything that is said about a topic. -/
structure Screen where
  usage : String
  about : List String
  arguments : List ArgumentHelp
  options : List OptionHelp
  commands : List (String × String)

def flagHelp (long short text : String) : OptionHelp :=
  ⟨long, short, "<bool>", text⟩

def helpHelp : OptionHelp :=
  flagHelp "--help" "" "Show this message and exit."

def commonHelp : List OptionHelp :=
  [ flagHelp "--json" "" "Output in machine-readable JSON format",
    flagHelp "--verbose" "-v" "Enable verbose logging",
    ⟨"--config", "-c", "<file>", "Configuration file (TOML)"⟩,
    helpHelp ]

namespace Topic

def summary : Topic → String
  | .program => "Complexity Insight - heuristic complexity analysis for TypeScript"
  | .analyze => "Score each file and show its category breakdown."
  | .compare => "Compare two files by weighted complexity. Lower is better."
  | .report => "Show each file's weighted category breakdown."
  | .module => "Aggregate complexity over relative imports, most complex module first."

def screen : Topic → Screen
  | .program =>
    { usage := "[OPTIONS] COMMAND [ARGS]..."
      about := [summary .program]
      arguments := []
      options := [flagHelp "--version" "" "Show version and exit", helpHelp]
      commands := [("analyze", summary .analyze), ("compare", summary .compare),
        ("module", summary .module), ("report", summary .report)] }
  | .analyze =>
    { usage := "analyze [OPTIONS] FILES..."
      about := [
        summary .analyze,
        "",
        "Files that cannot be read or parsed are reported and skipped; the exit",
        "code is 1 if any file failed.",
        "",
        "Examples:",
        "",
        "  complexity-insight analyze src/main.ts",
        "",
        "  complexity-insight analyze src/*.ts --hotspot 5",
        "",
        "  complexity-insight analyze src/*.ts --simple"]
      arguments := [⟨"FILES...", "<path>", "TypeScript files to analyze"⟩]
      options := [
        ⟨"--hotspot", "-n", "<int range> [x>=0]",
          "Show the top N hotspots per file [default: 0]"⟩,
        flagHelp "--simple" "" "Print one 'path score' line per file"] ++ commonHelp
      commands := [] }
  | .compare =>
    { usage := "compare [OPTIONS] FILE_A FILE_B"
      about := [
        summary .compare,
        "",
        "Examples:",
        "",
        "complexity-insight compare before.ts after.ts"]
      arguments := [⟨"FILE_A", "<path>", "First file"⟩, ⟨"FILE_B", "<path>", "Second file"⟩]
      options := commonHelp
      commands := [] }
  | .report =>
    { usage := "report [OPTIONS] FILES..."
      about := [
        summary .report,
        "",
        "Examples:",
        "",
        "complexity-insight report src/main.ts --hotspot"]
      arguments := [⟨"FILES...", "<path>", "TypeScript files to report on"⟩]
      options := flagHelp "--hotspot" "" "Include the hotspot list" :: commonHelp
      commands := [] }
  | .module =>
    { usage := "module [OPTIONS] FILES..."
      about := [
        summary .module,
        "",
        "Only imports between the given files are followed.",
        "",
        "Examples:",
        "",
        "  complexity-insight module src/*.ts"]
      arguments := [⟨"FILES...", "<path>", "Files forming one module graph"⟩]
      options := commonHelp
      commands := [] }

end Topic

end ComplexityMeter.Command
