import ComplexityMeter.Graph.Survey
import ComplexityMeter.Proofs.Graph.Search

/-!
# What the order of a list promises

Ordering a list of modules loses no module and adds none, and puts every module before the modules
it still imports. An edge is pruned only when it closes a cycle of edges that stay, so nothing is
pruned from a list without cycles. The events of ordering name the pruned edges, one event for each.
-/

namespace ComplexityMeter.Graph

open Relation

variable {α : Type} {modules : List (Module α)}

/-- An edge of a list: one of its modules, and a path that the module imports. -/
def Imports (modules : List (Module α)) (path target : String) : Prop :=
  ∃ m ∈ modules, m.path = path ∧ target ∈ m.dependencies

/-- Every module stands before the listed modules that it imports. -/
def Sorted (modules : List (Module α)) : Prop :=
  ∀ before m after, modules = before ++ m :: after →
    ∀ d ∈ m.dependencies, d ∈ modules.map Module.path → d ∈ after.map Module.path

/-! ### The finished modules as a list -/

theorem paths_ordered : (ordered modules).map Module.path = (search modules).paths := by
  simp [ordered, Found.paths, Function.comp_def]

theorem nodup_paths_ordered : ((ordered modules).map Module.path).Nodup := by
  rw [paths_ordered]
  simpa [followed] using (search_invariant modules).distinct.nodup

theorem mem_paths_ordered {p : String} :
    p ∈ (ordered modules).map Module.path ↔ p ∈ modules.map Module.path := by
  rw [paths_ordered, mem_paths_search]

theorem mem_ordered {o : Module α} :
    o ∈ ordered modules ↔ (o.path, o.dependencies) ∈ (search modules).finished ∧
      o.result = (find? modules o.path).bind Module.result := by
  obtain ⟨path, dependencies, result⟩ := o
  simp only [ordered, List.mem_map, Prod.exists, Module.mk.injEq]
  constructor
  · rintro ⟨p, kept, hmem, rfl, rfl, rfl⟩
    exact ⟨hmem, rfl⟩
  · rintro ⟨hmem, rfl⟩
    exact ⟨path, dependencies, hmem, rfl, rfl, rfl⟩

theorem keeps_search {p d : String} :
    Keeps (search modules, []) p d ↔ Imports (ordered modules) p d := by
  constructor
  · rintro (⟨kept, hmem, hd⟩ | ⟨f, hf, -⟩)
    · exact ⟨⟨p, kept, (find? modules p).bind Module.result⟩, mem_ordered.2 ⟨hmem, rfl⟩, rfl, hd⟩
    · cases hf
  · rintro ⟨o, ho, rfl, hd⟩
    exact .inl ⟨o.dependencies, (mem_ordered.1 ho).1, hd⟩

/-- In a list in which modules stand after what they keep, every suffix holds what its head keeps. -/
theorem Closed.mem_older {listed : List String} {newer older : List (String × List String)}
    {entry : String × List String} (h : Closed listed (newer ++ entry :: older)) {d : String}
    (hd : d ∈ entry.2) (hl : d ∈ listed) : d ∈ older.map Prod.fst := by
  induction newer with
  | nil => exact h.1 d hd hl
  | cons first newer ih => exact ih h.2

theorem sorted_ordered : Sorted (ordered modules) := by
  intro before o after split d hd listed
  obtain ⟨newer, tail, hfinished, rfl, htail⟩ := List.map_eq_append_iff.1 split
  obtain ⟨entry, older, rfl, rfl, rfl⟩ := List.map_eq_cons_iff.1 htail
  have closed := (search_invariant modules).inOrder.closed
  rw [hfinished] at closed
  simpa [Function.comp_def] using closed.mem_older hd (mem_paths_ordered.1 listed)

/-! ### Sorted lists have no cycles -/

theorem Imports.listed {p d : String} (edge : Imports modules p d) :
    p ∈ modules.map Module.path := by
  obtain ⟨m, member, rfl, -⟩ := edge
  exact List.mem_map_of_mem member

theorem Sorted.idxOf_lt (sorted : Sorted modules) (distinct : (modules.map Module.path).Nodup)
    {p d : String} (edge : Imports modules p d) (listed : d ∈ modules.map Module.path) :
    (modules.map Module.path).idxOf p < (modules.map Module.path).idxOf d := by
  obtain ⟨m, member, rfl, hd⟩ := edge
  obtain ⟨before, after, split⟩ := List.append_of_mem member
  have later := sorted before m after split d hd listed
  rw [split, List.map_append, List.map_cons] at distinct ⊢
  obtain ⟨-, distinct_tail, apart⟩ := List.nodup_append.1 distinct
  have hm : m.path ∉ before.map Module.path := fun h => apart _ h _ List.mem_cons_self rfl
  have hd : d ∉ before.map Module.path := fun h =>
    apart _ h _ (List.mem_cons_of_mem _ later) rfl
  have hne : m.path ≠ d := fun h => (List.nodup_cons.1 distinct_tail).1 (h ▸ later)
  rw [List.idxOf_append_of_notMem hm, List.idxOf_append_of_notMem hd, List.idxOf_cons_self,
    List.idxOf_cons_ne _ hne]
  omega

theorem Sorted.acyclic (sorted : Sorted modules) (distinct : (modules.map Module.path).Nodup)
    (p : String) : ¬ TransGen (Imports modules) p p := by
  have ahead : ∀ {a b}, TransGen (Imports modules) a b → b ∈ modules.map Module.path →
      (modules.map Module.path).idxOf a < (modules.map Module.path).idxOf b := by
    intro a b reach
    induction reach with
    | single edge => exact sorted.idxOf_lt distinct edge
    | tail _ edge ih =>
      intro listed
      exact Nat.lt_trans (ih edge.listed) (sorted.idxOf_lt distinct edge listed)
  intro cycle
  obtain ⟨b, edge, -⟩ := TransGen.head'_iff.1 cycle
  exact Nat.lt_irrefl _ (ahead cycle edge.listed)

/-! ### What becomes of every edge -/

theorem find?_of_mem (distinct : (modules.map Module.path).Nodup) {m : Module α}
    (member : m ∈ modules) : find? modules m.path = some m := by
  cases record : find? modules m.path with
  | none => exact absurd (List.mem_map_of_mem member) (find?_eq_none.1 record)
  | some other =>
    obtain ⟨other_member, same⟩ := find?_path record
    rw [List.inj_on_of_nodup_map distinct other_member member same]

/-- The imports of a module are kept or pruned by whether their targets were being followed when the
module was met, so all occurrences of a target share one fate. -/
theorem divided_ordered (distinct : (modules.map Module.path).Nodup) {m o : Module α}
    (member : m ∈ modules) (ho : o ∈ ordered modules) (same : o.path = m.path) :
    ∃ chain : List String, o.dependencies = m.dependencies.filter (fun d => d ∉ chain) ∧
      (search modules).prunedFrom m.path = m.dependencies.filter (fun d => d ∈ chain) := by
  obtain ⟨chain, other, other_member, hpath, done, hdone, hkept, hpruned⟩ :=
    (search_invariant modules).accounted.finished _ (mem_ordered.1 ho).1
  obtain rfl : other = m := List.inj_on_of_nodup_map distinct other_member member (hpath.trans same)
  rw [List.append_nil] at hdone
  subst hdone
  exact ⟨chain, hkept, same ▸ hpruned⟩

theorem exists_mem_ordered {m : Module α} (member : m ∈ modules) :
    ∃ o ∈ ordered modules, o.path = m.path :=
  List.mem_map.1 (mem_paths_ordered.2 (List.mem_map_of_mem member))

theorem exists_mem_of_ordered {o : Module α} (ho : o ∈ ordered modules) :
    ∃ m ∈ modules, m.path = o.path :=
  List.mem_map.1 (mem_paths_ordered.1 (List.mem_map_of_mem ho))

theorem mem_prunedImports {e : String × String} :
    e ∈ prunedImports modules ↔ e.2 ∈ (search modules).prunedFrom e.1 :=
  Found.mem_prunedFrom.symm

theorem kept_ordered (distinct : (modules.map Module.path).Nodup) {m o : Module α}
    (member : m ∈ modules) (ho : o ∈ ordered modules) (same : o.path = m.path) :
    o.dependencies = m.dependencies.filter fun d => (m.path, d) ∉ prunedImports modules := by
  obtain ⟨chain, hkept, hpruned⟩ := divided_ordered distinct member ho same
  rw [hkept]
  apply List.filter_congr
  intro d hd
  simp [mem_prunedImports, hpruned, hd]

theorem pruned_ordered (distinct : (modules.map Module.path).Nodup) {m : Module α}
    (member : m ∈ modules) :
    ((prunedImports modules).filter fun e => e.1 = m.path).map Prod.snd
      = m.dependencies.filter fun d => (m.path, d) ∈ prunedImports modules := by
  obtain ⟨o, ho, same⟩ := exists_mem_ordered member
  obtain ⟨chain, -, hpruned⟩ := divided_ordered distinct member ho same
  change (search modules).prunedFrom m.path = _
  rw [hpruned]
  apply List.filter_congr
  intro d hd
  simp [mem_prunedImports, hpruned, hd]

theorem cycle_of_mem_pruned {e : String × String} (he : e ∈ prunedImports modules) :
    ReflTransGen (Imports (ordered modules)) e.2 e.1 :=
  ReflTransGen.mono (fun _ _ => keeps_search.1) _ _ ((search_invariant modules).cyclic.cycle e he)

theorem imports_of_mem_pruned (distinct : (modules.map Module.path).Nodup) {e : String × String}
    (he : e ∈ prunedImports modules) : Imports modules e.1 e.2 := by
  have met : e.1 ∈ (search modules).paths := by
    by_contra unmet
    have none := (search_invariant modules).accounted.untouched e.1 (by simpa [followed] using unmet)
    rw [mem_prunedImports, none] at he
    cases he
  obtain ⟨m, member, hpath⟩ := List.mem_map.1 (mem_paths_search.1 met)
  have hd : e.2 ∈ m.dependencies.filter fun d => (m.path, d) ∈ prunedImports modules := by
    rw [← pruned_ordered distinct member, hpath]
    exact List.mem_map.2 ⟨e, by simpa using he, rfl⟩
  exact ⟨m, member, hpath, List.mem_of_mem_filter hd⟩

theorem Imports.of_ordered (distinct : (modules.map Module.path).Nodup) {p d : String}
    (edge : Imports (ordered modules) p d) : Imports modules p d := by
  obtain ⟨o, ho, rfl, hd⟩ := edge
  obtain ⟨m, member, hpath⟩ := exists_mem_of_ordered ho
  rw [kept_ordered distinct member ho hpath.symm] at hd
  exact ⟨m, member, hpath, List.mem_of_mem_filter hd⟩

/-! ### The order of a list -/

/-- `out` is an order of a list from which the edges in `pruned` have been taken. -/
structure IsOrdering (modules out : List (Module α)) (pruned : List (String × String)) : Prop where
  /-- Every path of the list occurs, no other path does, -/
  paths : (out.map Module.path).Perm (modules.map Module.path)
  /-- and none occurs twice. -/
  nodup : (out.map Module.path).Nodup
  result : ∀ m ∈ modules, ∀ o ∈ out, o.path = m.path → o.result = m.result
  sublist : ∀ m ∈ modules, ∀ o ∈ out, o.path = m.path → o.dependencies.Sublist m.dependencies
  /-- Every module stands strictly before the listed modules that it still imports. -/
  before : ∀ newer o older, out = newer ++ o :: older →
    ∀ d ∈ o.dependencies, d ∈ modules.map Module.path → d ∈ older.map Module.path
  acyclic : ∀ p, ¬ TransGen (Imports out) p p
  /-- What is pruned closes a cycle of edges that stay; -/
  cycle : ∀ e ∈ pruned, ReflTransGen (Imports out) e.2 e.1
  /-- it is an edge between listed modules, -/
  edge : ∀ e ∈ pruned, Imports modules e.1 e.2 ∧ e.2 ∈ modules.map Module.path
  /-- and there is none if there was no cycle. -/
  unpruned : (∀ p, ¬ TransGen (Imports modules) p p) → pruned = []
  /-- The edges that stay are those that are not pruned, -/
  kept : ∀ m ∈ modules, ∀ o ∈ out, o.path = m.path →
    o.dependencies = m.dependencies.filter fun d => (m.path, d) ∉ pruned
  /-- and every other occurrence of an edge is pruned once, in the order of the module. -/
  removed : ∀ m ∈ modules, (pruned.filter fun e => e.1 = m.path).map Prod.snd
    = m.dependencies.filter fun d => (m.path, d) ∈ pruned

/-- Every list of modules with distinct paths is put in order, and each edge that is pruned on the
way is noted. -/
theorem isOrdering_ordered (modules : List (Module α)) (distinct : (modules.map Module.path).Nodup) :
    IsOrdering modules (ordered modules) (prunedImports modules) ∧
      (orderEvents modules : List (Event α))
        = (prunedImports modules).map (fun e => Event.pruned e.1 e.2) ∧
      ∀ path target, (Event.pruned path target).text
        = "Pruning cyclic edge " ++ path ++ " -> " ++ target := by
  refine ⟨?_, rfl, fun _ _ => rfl⟩
  have cycle : ∀ e ∈ prunedImports modules, ReflTransGen (Imports (ordered modules)) e.2 e.1 :=
    fun _ => cycle_of_mem_pruned
  refine
    { paths := (List.perm_ext_iff_of_nodup nodup_paths_ordered distinct).2 fun _ => mem_paths_ordered
      nodup := nodup_paths_ordered
      result := ?result
      sublist := ?sublist
      before := fun newer o older split d hd listed =>
        sorted_ordered newer o older split d hd (mem_paths_ordered.2 listed)
      acyclic := sorted_ordered.acyclic nodup_paths_ordered
      cycle
      edge := ?edge
      unpruned := ?unpruned
      kept := fun m member o ho same => kept_ordered distinct member ho same
      removed := fun m member => pruned_ordered distinct member }
  case result =>
    intro m member o ho same
    rw [(mem_ordered.1 ho).2, same, find?_of_mem distinct member]
    rfl
  case sublist =>
    intro m member o ho same
    rw [kept_ordered distinct member ho same]
    exact List.filter_sublist
  case edge =>
    intro e he
    have edge := imports_of_mem_pruned distinct he
    refine ⟨edge, ?_⟩
    rcases ReflTransGen.cases_head (cycle e he) with same | ⟨_, first, -⟩
    · exact same ▸ edge.listed
    · exact (first.of_ordered distinct).listed
  case unpruned =>
    intro acyclic
    apply List.eq_nil_iff_forall_not_mem.2
    intro e he
    have back := ReflTransGen.mono (fun _ _ => Imports.of_ordered distinct) _ _ (cycle e he)
    exact acyclic e.1 (TransGen.head' (imports_of_mem_pruned distinct he) back)

/-- Modules that import each other, themselves, a target twice and a file that is not listed; one of
them has no result. -/
def tangled : List (Module Number) :=
  [⟨"a", ["a", "b", "b", "x"], some ⟨"program", .int 4, none, [], [⟨"string", .int 1, none, [], []⟩]⟩⟩,
    ⟨"b", ["c", "a", "c"], some ⟨"program", .int 2, none, [], []⟩⟩, ⟨"c", [], none⟩]

theorem isOrdering_tangled :
    (tangled.map Module.path).Nodup ∧ prunedImports tangled = [("a", "a"), ("b", "a")] ∧
      IsOrdering tangled (ordered tangled) [("a", "a"), ("b", "a")] := by
  have distinct : (tangled.map Module.path).Nodup := by decide
  have pruned : prunedImports tangled = [("a", "a"), ("b", "a")] := by cbv
  have order := (isOrdering_ordered tangled distinct).1
  rw [pruned] at order
  exact ⟨distinct, pruned, order⟩

end ComplexityMeter.Graph
