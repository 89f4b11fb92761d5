import ComplexityMeter.Config.Record
import ComplexityMeter.Metrics.Comparison
import ComplexityMeter.Proofs.Score.Ranking

/-!
# Thresholds of hotspots

What a tree is charged depends on the depth ceiling and on nothing else in the settings. The walk
meets the expensive places among the charges in its order; a threshold picks those that reach it,
and the rest is a ranking. So a higher threshold keeps a beginning of the hotspots and leaves the
scores alone.
-/

namespace ComplexityMeter.Metrics

open Syntax (Node Tree)
open Score (Ceiling IsRanking ranked)

section

variable {α : Type} [Scalar α]

/-- The expensive places of a tree, in the order in which the walk meets them. -/
def places (ceiling : Ceiling) (t : Tree) : List (Hotspot α) :=
  (charges ceiling t.root).filterMap Charge.hotspot

def placesFrom (least : α) (ceiling : Ceiling) (t : Tree) : List (Hotspot α) :=
  (places ceiling t).filter fun spot => decide (least ≤ spot.score)

/-- A record of metrics is another one without the hotspots that do not reach a threshold: the
others stand at the beginning there. -/
structure Record.Keeps (m' m : Record α) (least : α) : Prop where
  total_eq : m'.total = m.total
  score_eq : m'.score = m.score
  hotspots_eq : m'.hotspots = m.hotspots.filter fun spot => decide (least ≤ spot.score)
  beginning : m'.hotspots <+: m.hotspots

theorem hotspots_eq_ranked {ceiling : Ceiling} {least : α} {t : Tree}
    (reflexive : ∀ spot ∈ places (α := α) ceiling t, spot.score ≤ spot.score) :
    (measure ceiling least t).hotspots = ranked Hotspot.score (placesFrom least ceiling t) :=
  (Score.ranked_eq_mergeSort fun spot hs => reflexive spot (List.mem_of_mem_filter hs)).symm

/-! ### Settings -/

variable {P : α → Prop} (order : Scalar.Comparable P) {s s' : Settings α} {t : Tree}
  (scores : ∀ spot ∈ places (α := α) s.ceiling t, P spot.score)
include order scores

theorem isRanking_measureTree :
    IsRanking Hotspot.score (placesFrom s.leastHotspot s.ceiling t)
      (measureTree s t).hotspots := by
  rw [measureTree, hotspots_eq_ranked fun spot hs => order.le_refl (scores spot hs)]
  exact Score.isRanking_ranked order fun spot hs => scores spot (List.mem_of_mem_filter hs)

/-- Where the depth ceilings agree, the higher one of two thresholds keeps what reaches it. -/
theorem keeps_measureTree (ceilings : s'.ceiling = s.ceiling) (hl : P s.leastHotspot)
    (hh : P s'.leastHotspot) (le : s.leastHotspot ≤ s'.leastHotspot) :
    (measureTree s' t).Keeps (measureTree s t) s'.leastHotspot := by
  rw [measureTree, measureTree, ceilings]
  have reflexive := fun spot hs => order.le_refl (scores spot hs)
  refine ⟨rfl, rfl, ?_, ?_⟩
  · rw [hotspots_eq_ranked reflexive, hotspots_eq_ranked reflexive]
    exact (Score.filter_ranked_reaching order scores hl hh le).symm
  · rw [hotspots_eq_ranked reflexive, hotspots_eq_ranked reflexive]
    exact Score.ranked_reaching_prefix order scores hl hh le

end

/-- Two settings with the same depth ceiling, all else being arbitrary, give a tree the same scores
and the same total. Where the scores of its expensive places compare, as they all do in a linear
order (`Comparable.of_linear`), the hotspots are a ranking of the places that reach the threshold,
and the higher threshold keeps those that reach it, at the beginning. The same holds of the settings
of configurations, whose thresholds compare as soon as one is not above the other. -/
theorem threshold_only_filters :
    (∀ {α : Type} [Scalar α] (s s' : Settings α) (t : Tree), s'.ceiling = s.ceiling →
      (measureTree s' t).total = (measureTree s t).total
      ∧ (measureTree s' t).score = (measureTree s t).score
      ∧ ∀ {P : α → Prop}, Scalar.Comparable P →
        (∀ spot ∈ places (α := α) s.ceiling t, P spot.score) →
          IsRanking Hotspot.score (placesFrom s.leastHotspot s.ceiling t) (measureTree s t).hotspots
          ∧ (P s.leastHotspot → P s'.leastHotspot → s.leastHotspot ≤ s'.leastHotspot →
            (measureTree s' t).Keeps (measureTree s t) s'.leastHotspot))
    ∧ ∀ (c c' : Config) (t : Tree), c'.value .maxDepth = c.value .maxDepth →
      (∀ spot ∈ places (α := Number) c.settings.ceiling t, spot.score.IsPlaced) →
      c.settings.leastHotspot ≤ c'.settings.leastHotspot →
        (measureTree c'.settings t).Keeps (measureTree c.settings t) c'.settings.leastHotspot := by
  refine ⟨fun s s' t ceilings => ?_, fun c c' t depths scores le => ?_⟩
  · refine ⟨?_, ?_, fun order scores => ⟨isRanking_measureTree order scores,
      keeps_measureTree order scores ceilings⟩⟩
    · rw [measureTree, ceilings]
      rfl
    · rw [measureTree, ceilings]
      rfl
  · have ceilings : c'.settings.ceiling = c.settings.ceiling := by
      simp only [Config.settings, Config.numberOf, depths]
    obtain ⟨hl, hh⟩ := Number.isPlaced_of_le le
    exact keeps_measureTree Number.comparable scores ceilings hl hh le

/-- Three variables, each on a line of its own, of which the second one is incremented more often
than the others. -/
def threeCounters : Tree :=
  let node (kind text : String) (field : Option String) (row : Nat) (branches : List Node) : Node :=
    ⟨kind, true, false, false, field, text, row, row, 0, branches⟩
  let declaration (name : String) (row : Nat) : Node :=
    node "lexical_declaration" "" none row
      [node "let" "let" (some "kind") row [],
        node "variable_declarator" "" none row [node "identifier" name (some "name") row []]]
  let increment (name : String) : Node :=
    node "update_expression" "" none 3 [node "identifier" name (some "argument") 3 []]
  ⟨node "program" "" none 0
    ([declaration "x" 0, declaration "y" 1, declaration "z" 2]
      ++ ["x", "x", "x", "y", "y", "y", "y", "z", "z", "z"].map increment),
    "counters.ts", .typescript⟩

def stricter : Config :=
  { Config.default with
    value := fun
      | .leastHotspot => .number (.int 4)
      | .language => .text "tsx"
      | .damping => .number (.float 0.75)
      | f => Config.default.value f }

/-- The second variable is the one that reaches the higher threshold, so it comes first among the
three that reach the default one. -/
theorem threshold_only_filters_counters :
    let settings := Config.default.settings
    (∀ spot ∈ places (α := Number) settings.ceiling threeCounters, spot.score.IsPlaced)
    ∧ settings.leastHotspot ≤ stricter.settings.leastHotspot
    ∧ (placesFrom settings.leastHotspot settings.ceiling threeCounters).map Hotspot.line = [1, 2, 3]
    ∧ IsRanking Hotspot.score (placesFrom settings.leastHotspot settings.ceiling threeCounters)
      (measureTree settings threeCounters).hotspots
    ∧ (measureTree stricter.settings threeCounters).total
      = (measureTree settings threeCounters).total
    ∧ (measureTree stricter.settings threeCounters).hotspots.map Hotspot.line = [2]
    ∧ (measureTree stricter.settings threeCounters).hotspots
      <+: (measureTree settings threeCounters).hotspots := by
  intro settings
  have scores : ∀ spot ∈ places (α := Number) settings.ceiling threeCounters,
      spot.score.IsPlaced := by decide +kernel
  have le : settings.leastHotspot ≤ stricter.settings.leastHotspot := by decide +kernel
  obtain ⟨total, -, ranking⟩ :=
    threshold_only_filters.1 settings stricter.settings threeCounters rfl
  have keeps := threshold_only_filters.2 Config.default stricter threeCounters rfl scores le
  exact ⟨scores, le, by decide +kernel, (ranking Number.comparable scores).1, total,
    by decide +kernel, keeps.beginning⟩

end ComplexityMeter.Metrics
