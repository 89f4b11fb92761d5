import ComplexityMeter.Graph.Imports
import ComplexityMeter.Proofs.Score.View

/-!
# Imports under the view

What a file imports, how many names it imports and how many variables it can reassign is read
through the view alone, and so is its result as part of a module graph.
-/

namespace ComplexityMeter.Graph

open Syntax (Node Tree)

variable {f : Node → Node} {n : Node}

section

variable (h : n.ReadsAll f)
include h

theorem source?_map : source? (f n) = source? n := by
  have whole := h.self
  rw [source?, source?, whole.kind_eq, whole.child?_eq, Option.map_map]
  cases found : n.child? "source" with
  | none => rfl
  | some s =>
    simp only [Option.map_some, Function.comp_apply,
      (h.child found).self.text_eq]

theorem sources_map : sources (f n) = (sources n).map fun s => (s.1, f s.2) := by
  rw [sources, h.self.children_eq, List.filterMap_map, sources, List.map_filterMap]
  refine List.filterMap_congr fun statement hs => ?_
  rw [Function.comp_apply, source?_map (h.visible hs), Option.map_map]
  rfl

theorem fst_sources_map : (sources (f n)).map Prod.fst = (sources n).map Prod.fst := by
  rw [sources_map h, List.map_map]
  rfl

theorem dependencies_map (defaultFile path : String) :
    dependencies defaultFile path (f n) = dependencies defaultFile path n := by
  rw [dependencies, fst_sources_map h, dependencies]

/-! ### Imported names -/

theorem clauseSymbols_map : clauseSymbols (f n) = clauseSymbols n := by
  have whole := h.self
  have specifiers : (f n).children.countP (fun c => c.kind = "import_specifier")
      = n.children.countP fun c => c.kind = "import_specifier" := by
    rw [whole.children_eq, List.countP_map]
    exact List.countP_congr fun c hc => by
      rw [Function.comp_apply, (h.shown c hc).kind_eq]
  rw [clauseSymbols, whole.kind_eq, specifiers, clauseSymbols]

theorem importedSymbols_map : importedSymbols (f n) = importedSymbols n := by
  have found := h.self.childOfKind?_map (fun c hc => (h.shown c hc).kind_eq) ["import_clause"]
  rw [importedSymbols, importedSymbols, found]
  cases found : n.childOfKind? ["import_clause"] with
  | none => rfl
  | some clause =>
    have inside := h.visible (List.mem_of_find?_eq_some found)
    have symbols : (clause.children.map f).map clauseSymbols
        = clause.children.map clauseSymbols := by
      rw [List.map_map]
      exact List.map_congr_left fun part hp => clauseSymbols_map (inside.visible hp)
    simp only [Option.map_some, inside.self.children_eq, symbols]

omit h in
theorem mem_children_of_mem_sources {s : String × Node} (hs : s ∈ sources n) :
    s.2 ∈ n.children := by
  obtain ⟨statement, inside, named⟩ := List.mem_filterMap.1 hs
  obtain ⟨_, _, rfl⟩ := Option.map_eq_some_iff.1 named
  exact inside

theorem importCounts_map : importCounts (f n) = importCounts n := by
  have inside : ∀ s ∈ sources n, s.2.ReadsAll f := fun s hs =>
    h.visible (mem_children_of_mem_sources hs)
  have imports : (sources (f n)).filter (fun s => s.2.kind = "import_statement")
      = ((sources n).filter fun s => s.2.kind = "import_statement").map fun s => (s.1, f s.2) := by
    rw [sources_map h, List.filter_map]
    refine congrArg (List.map _) (List.filter_congr fun s hs => ?_)
    simp only [Function.comp_apply, (inside s hs).self.kind_eq]
  have symbols (p : String → Bool) :
      ((((sources (f n)).filter fun s => s.2.kind = "import_statement").filter
          fun s => p s.1).map fun s => importedSymbols s.2)
        = (((sources n).filter fun s => s.2.kind = "import_statement").filter fun s => p s.1).map
            fun s => importedSymbols s.2 := by
    rw [imports, List.filter_map, List.map_map]
    refine List.map_congr_left fun s hs => importedSymbols_map (inside s ?_)
    exact (List.mem_filter.1 (List.mem_filter.1 hs).1).1
  exact congrArg₂ (fun library localFiles =>
    ImportCounts.mk (library.foldl (· + ·) 0) (localFiles.foldl (· + ·) 0))
    (symbols fun s => !isRelative s) (symbols isRelative)

/-! ### Reassignable variables -/

theorem letCount_map : letCount (f n) = letCount n := by
  have lets : ∀ m ∈ n.walk,
      (if (f m).kind = "lexical_declaration" ∧ (f m).token? "kind" = some "let" then
        (Score.declarators (f m)).length else 0)
      = if m.kind = "lexical_declaration" ∧ m.token? "kind" = some "let" then
          (Score.declarators m).length else 0 := by
    intro m hm
    have inside := h.of_mem (n.walk_subset_nodes hm)
    have declared := Score.declarators_map inside.self inside.shown
    rw [inside.self.kind_eq, inside.self.token?_eq, declared, List.length_map]
  rw [letCount, h.walk_map, List.map_map, letCount]
  exact congrArg (List.foldl (· + ·) 0) (List.map_congr_left lets)

end

section

variable {α : Type} [Scalar α] {t : Tree} (h : t.root.ReadsAll f)
  (settings : Settings α)
include h

omit [Scalar α] in
theorem checkImports_map :
    checkImports settings { t with root := f t.root } = checkImports settings t := by
  simp only [checkImports, fst_sources_map h]

theorem moduleFileResult_map :
    moduleFileResult settings { t with root := f t.root } = moduleFileResult settings t := by
  simp only [moduleFileResult, Score.scoreFile_map h, importCounts_map h, letCount_map h]

end

end ComplexityMeter.Graph
