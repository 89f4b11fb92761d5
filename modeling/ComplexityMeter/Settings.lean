import ComplexityMeter.Failure
import ComplexityMeter.Score.Visit
import ComplexityMeter.Syntax.Language

/-!
# Settings of an analysis

The quantities that an analysis depends on, over any type of numbers.
-/

namespace ComplexityMeter

open Score (Ceiling)
open Syntax (Language)

structure Settings (α : Type) where
  /-- How deep trees are scored. -/
  ceiling : Ceiling
  /-- The depth ceiling as events give it, without its fractional part. -/
  depthLimit : Int
  /-- The language of snippets that come without a file name. -/
  language : Language
  /-- The score from which a scored node is a hotspot. -/
  hotspotThreshold : α
  /-- The score from which an expensive place is listed with the metrics. -/
  leastHotspot : α
  /-- How deep totals of modules are followed. -/
  moduleCeiling : Ceiling
  /-- The file that an import of a directory names. -/
  defaultFile : String
  /-- Why the default file cannot stand without a directory in front of it, if it cannot. -/
  notAlone : Option Misuse
  /-- The share of the totals of imported modules. -/
  damping : α
  /-- The pressure of a symbol imported from a package. -/
  libraryWeight : α
  /-- The pressure of a symbol imported from a file. -/
  localWeight : α
  /-- What every reassignable variable adds to the factor of its file. -/
  mutabilityFactor : α

namespace Settings

def default {α : Type} [Scalar α] : Settings α :=
  { ceiling := .level 20
    depthLimit := 20
    language := .typescript
    hotspotThreshold := 5.0
    leastHotspot := 3.0
    moduleCeiling := .level 10
    defaultFile := "mod.ts"
    notAlone := none
    damping := 0.5
    libraryWeight := 3.0
    localWeight := 1.0
    mutabilityFactor := 0.5 }

end Settings

end ComplexityMeter
