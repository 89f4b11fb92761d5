import ComplexityMeter.Proofs.Graph.View
import ComplexityMeter.Proofs.Metrics.View
import ComplexityMeter.Proofs.Score.Composition
import ComplexityMeter.Proofs.Syntax.Comments

/-!
# Comments never count

Scores, metrics and imports are read through the view of a tree. Comments that stand aside can be
taken out of the tree without a change to any of them.
-/

namespace ComplexityMeter

open Syntax (Node Tree)
open Score (scoreFile sketch)
open Metrics (measure)

/-- When no comment is held under a grammar field and none comes first in an update or a lexical
declaration, the tree without its comments has the same result as a file and as a part of a module
graph, the same metrics, the same imports and the same count of reassignable variables. -/
theorem comments_never_count {t : Tree} (aside : t.root.Aside) :
    (∀ m ∈ Node.nodesAll t.strip.root.branches, m.isComment = false)
    ∧ (∀ {α : Type} [Scalar α] (settings : Settings α),
        scoreFile settings.ceiling t.strip = scoreFile (α := α) settings.ceiling t
        ∧ measure settings.ceiling settings.leastHotspot t.strip
            = measure settings.ceiling settings.leastHotspot t
        ∧ Graph.moduleFileResult settings t.strip = Graph.moduleFileResult settings t
        ∧ Graph.checkImports settings t.strip = Graph.checkImports settings t
        ∧ ∀ path, Graph.dependencies settings.defaultFile path t.strip.root
            = Graph.dependencies settings.defaultFile path t.root)
    ∧ Graph.importCounts t.strip.root = Graph.importCounts t.root
    ∧ Graph.letCount t.strip.root = Graph.letCount t.root := by
  have reads : t.root.ReadsAll Node.strip := fun _ hm =>
    Node.reads_strip (aside.of_mem hm)
  refine ⟨fun m hm => Node.isComment_of_mem_strip t.root hm, fun settings => ?_,
    Graph.importCounts_map reads, Graph.letCount_map reads⟩
  exact ⟨Score.scoreFile_map reads _, Metrics.measure_map reads _ _,
    Graph.moduleFileResult_map reads settings, Graph.checkImports_map reads settings,
    fun path => Graph.dependencies_map reads _ path⟩

/-- A variable with a comment on each side of it, and in the block of a condition one more. -/
def annotated : Tree :=
  let comment (identity : Nat) := sketch "comment" none identity []
  let counter := sketch "lexical_declaration" none 1
    [sketch "let" (some "kind") 2 [], comment 3,
      sketch "variable_declarator" none 4
        [sketch "identifier" (some "name") 5 [], sketch "number" (some "value") 6 []]]
  let condition := sketch "if_statement" none 7
    [sketch "identifier" (some "condition") 8 [],
      sketch "statement_block" (some "consequence") 9
        [sketch "html_comment" none 10 [sketch "number" none 11 []]]]
  ⟨sketch "program" none 0 [comment 12, counter, comment 13, condition], "annotated.ts",
    .typescript⟩

theorem comments_never_count_annotated :
    annotated.root.Aside
    ∧ annotated.root.size = 14 ∧ annotated.strip.root.size = 9
    ∧ scoreFile (.level 20) annotated.strip = scoreFile (α := Number) (.level 20) annotated
    ∧ Graph.letCount annotated.strip.root = 1 := by
  have aside : annotated.root.Aside := ⟨by decide, by decide⟩
  have counts := comments_never_count aside
  have lets : Graph.letCount annotated.root = 1 := by decide +kernel
  exact ⟨aside, by decide, by decide, (counts.2.1 Settings.default).1, counts.2.2.2.trans lets⟩

end ComplexityMeter
