import ComplexityMeter.Proofs.Graph.Independence

/-!
# Lists with a further module

A module that no other one imports is never met while the others are followed. When it is listed
last, the search has found by then what it finds without it; of the imports of the further module,
those that are listed are finished, so all of them are kept but those of itself. It stands in front
of the order of the others, and totals, which are computed from the end of the order, come to it
last.
-/

namespace ComplexityMeter.Graph

variable {α : Type} {modules : List (Module α)} {x : Module α}

/-! ### One step of the search -/

section Steps

variable {found : Found} {path d : String} {kept rest : List String} {frames : List Frame}

theorem explore_prune (onPath : d = path ∨ d ∈ followed frames) :
    explore modules found (⟨path, kept, d :: rest⟩ :: frames)
      = explore modules { found with pruned := found.pruned ++ [(path, d)] }
          (⟨path, kept, rest⟩ :: frames) := by
  rw [explore, if_pos onPath]

theorem explore_keep (offPath : ¬ (d = path ∨ d ∈ followed frames))
    (stale : freshModule? modules found (⟨path, kept ++ [d], rest⟩ :: frames) d = none) :
    explore modules found (⟨path, kept, d :: rest⟩ :: frames)
      = explore modules found (⟨path, kept ++ [d], rest⟩ :: frames) := by
  rw [explore, if_neg offPath]
  split
  · rfl
  · rename_i fresh
    rw [stale] at fresh
    cases fresh

theorem explore_descend (offPath : ¬ (d = path ∨ d ∈ followed frames)) {m : Module α}
    (fresh : freshModule? modules found (⟨path, kept ++ [d], rest⟩ :: frames) d = some m) :
    explore modules found (⟨path, kept, d :: rest⟩ :: frames)
      = explore modules found
          (⟨d, [], m.dependencies⟩ :: ⟨path, kept ++ [d], rest⟩ :: frames) := by
  rw [explore, if_neg offPath]
  split
  · rename_i stale
    rw [fresh] at stale
    cases stale
  · rename_i other
    obtain rfl := Option.some.inj (fresh.symm.trans other)
    rfl

end Steps

/-- A module whose imports are all finished or not listed keeps them, but for those of itself. -/
theorem explore_of_finished {found : Found} {path : String} {kept rest : List String}
    (finished : ∀ d ∈ rest, d ≠ path → d ∈ modules.map Module.path → d ∈ found.paths) :
    explore modules found [⟨path, kept, rest⟩]
      = ⟨(path, kept ++ rest.filter fun d => d ≠ path) :: found.finished,
          found.pruned ++ (rest.filter fun d => d = path).map fun d => (path, d)⟩ := by
  induction rest generalizing found kept with
  | nil =>
    rw [explore, explore]
    simp
  | cons d rest ih =>
    obtain ⟨first, others⟩ := List.forall_mem_cons.1 finished
    by_cases itself : d = path
    · rw [explore_prune (.inl itself)]
      refine (ih ?_).trans ?_
      · exact others
      · simp [itself]
    · have stale : freshModule? modules found [⟨path, kept ++ [d], rest⟩] d = none := by
        rw [freshModule?]
        split
        · rename_i fresh
          exact find?_eq_none.2 fun listed => (isFresh_iff.1 fresh).2 (first itself listed)
        · rfl
      rw [explore_keep (by simpa [followed] using itself) stale, ih others]
      simp [itself]

/-! ### The search for the others -/

theorem find?_append_self (modules : List (Module α)) (x : Module α) :
    find? (modules ++ [x]) x.path = some x := by
  simp [find?]

theorem find?_append_of_ne {d : String} (other : d ≠ x.path) :
    find? (modules ++ [x]) d = find? modules d := by
  simp [find?, other.symm]

theorem freshModule?_append_of_ne {found : Found} {frames : List Frame} {d : String}
    (other : d ≠ x.path) :
    freshModule? (modules ++ [x]) found frames d = freshModule? modules found frames d := by
  rw [freshModule?, freshModule?, find?_append_of_ne other]

variable (new : x.path ∉ modules.map Module.path)
  (unimported : ∀ m ∈ modules, x.path ∉ m.dependencies)

section

include unimported

/-- A search that never looks at the path of the further module does not notice it. -/
theorem explore_append {found : Found} {frames : List Frame}
    (ahead : ∀ f ∈ frames, x.path ∉ f.rest) :
    explore (modules ++ [x]) found frames = explore modules found frames := by
  fun_induction explore modules found frames with
  | case1 found => rw [explore]
  | case2 found path kept frames ih =>
    rw [explore]
    exact ih (List.forall_mem_cons.1 ahead).2
  | case3 found path kept d rest frames onPath ih =>
    obtain ⟨looked, below⟩ := List.forall_mem_cons.1 ahead
    rw [explore_prune onPath]
    exact ih (List.forall_mem_cons.2 ⟨List.not_mem_of_not_mem_cons looked, below⟩)
  | case4 found path kept d rest frames offPath stale ih =>
    obtain ⟨looked, below⟩ := List.forall_mem_cons.1 ahead
    obtain ⟨other, looked⟩ := List.ne_and_not_mem_of_not_mem_cons looked
    rw [explore_keep offPath ((freshModule?_append_of_ne other.symm).trans stale)]
    exact ih (List.forall_mem_cons.2 ⟨looked, below⟩)
  | case5 found path kept d rest frames offPath m fresh ih =>
    obtain ⟨looked, below⟩ := List.forall_mem_cons.1 ahead
    obtain ⟨other, looked⟩ := List.ne_and_not_mem_of_not_mem_cons looked
    rw [explore_descend offPath ((freshModule?_append_of_ne other.symm).trans fresh)]
    have member : m ∈ modules := by
      unfold freshModule? at fresh
      split at fresh
      · exact (find?_path fresh).1
      · cases fresh
    exact ih (List.forall_mem_cons.2
      ⟨unimported m member, List.forall_mem_cons.2 ⟨looked, below⟩⟩)

theorem exploreFrom_append (found : Found) {m : Module α} (member : m ∈ modules) :
    exploreFrom (modules ++ [x]) found m = exploreFrom modules found m := by
  rw [exploreFrom, exploreFrom,
    explore_append unimported (List.forall_mem_singleton.2 (unimported m member))]

/-- Listed last, the further module is followed when the search for the others has ended. -/
theorem search_append :
    search (modules ++ [x]) = exploreFrom (modules ++ [x]) (search modules) x := by
  have others : modules.foldl (exploreFrom (modules ++ [x])) ⟨[], []⟩ = search modules :=
    List.foldl_ext _ _ _ fun found m member => exploreFrom_append unimported found member
  rw [search, List.foldl_append, others, List.foldl_cons, List.foldl_nil]

end

/-! ### The search for the further module -/

section

include new unimported

theorem search_append_eq :
    search (modules ++ [x])
      = ⟨(x.path, x.dependencies.filter fun d => d ≠ x.path) :: (search modules).finished,
          (search modules).pruned
            ++ (x.dependencies.filter fun d => d = x.path).map fun d => (x.path, d)⟩ := by
  have fresh : isFresh (search modules) [] x.path = true :=
    isFresh_iff.2 ⟨List.not_mem_nil, mem_paths_search.not.2 new⟩
  have finished : ∀ d ∈ x.dependencies, d ≠ x.path → d ∈ (modules ++ [x]).map Module.path →
      d ∈ (search modules).paths := by
    intro d _ other listed
    rw [mem_paths_search]
    simpa [other] using listed
  rw [search_append unimported, exploreFrom, if_pos fresh, explore_of_finished finished,
    List.nil_append]

theorem ordered_append :
    ordered (modules ++ [x])
      = { x with dependencies := x.dependencies.filter fun d => d ≠ x.path }
        :: ordered modules := by
  rw [ordered, search_append_eq new unimported, List.map_cons, ordered]
  dsimp only
  rw [find?_append_self, Option.bind_some]
  refine congrArg _ (List.map_congr_left fun e he => ?_)
  have listed : e.1 ∈ modules.map Module.path := mem_paths_search.1 (List.mem_map_of_mem he)
  rw [find?_append_of_ne fun same => new (same ▸ listed)]

theorem prunedImports_append :
    prunedImports (modules ++ [x]) = prunedImports modules
      ++ (x.dependencies.filter fun d => d = x.path).map fun d => (x.path, d) := by
  rw [prunedImports, search_append_eq new unimported, prunedImports]

end

/-- What a module of an order imports, a module of the list imports. -/
theorem exists_mem_dependencies_of_ordered {o : Module α} (ho : o ∈ ordered modules) {d : String}
    (hd : d ∈ o.dependencies) : ∃ m ∈ modules, d ∈ m.dependencies := by
  obtain ⟨chain, m, member, -, done, all, kept, -⟩ :=
    (search_invariant modules).accounted.finished _ (mem_ordered.1 ho).1
  rw [List.append_nil] at all
  have kept : o.dependencies = done.filter fun d => d ∉ chain := kept
  rw [kept, ← all] at hd
  exact ⟨m, member, List.mem_of_mem_filter hd⟩

/-! ### Totals of the others -/

variable [Scalar α] [SquareRoot α]

/-- Whether a path that no module imports is listed makes no difference to totals. -/
theorem settledTotals_cons_listed (damping : α) (listed : List String) {p : String}
    {older : List (Module α)} (unimported : ∀ m ∈ older, p ∉ m.dependencies) :
    settledTotals damping (p :: listed) older = settledTotals damping listed older := by
  induction older with
  | nil => rfl
  | cons m older ih =>
    obtain ⟨first, others⟩ := List.forall_mem_cons.1 unimported
    have imports : m.dependencies.filter (· ∈ p :: listed)
        = m.dependencies.filter (· ∈ listed) := by
      refine List.filter_congr fun d hd => ?_
      have other : d ≠ p := fun same => first (same ▸ hd)
      simp [other]
    rw [settledTotals, settledTotals, ih others, imports]

section

include new unimported

theorem totalOf_append (settings : Settings α) {p : String} (other : p ≠ x.path) :
    totalOf (computeTotals (ordered (modules ++ [x])) settings) p
      = totalOf (computeTotals (ordered modules) settings) p := by
  unfold totalOf Totals.get?
  cases ceiling : exceeds settings.moduleCeiling 0 with
  | true => rw [known_computeTotals_of_exceeds ceiling, known_computeTotals_of_exceeds ceiling]
  | false =>
    have spared : ∀ o ∈ ordered modules, x.path ∉ o.dependencies := fun o ho hd => by
      obtain ⟨m, member, hd⟩ := exists_mem_dependencies_of_ordered ho hd
      exact unimported m member hd
    rw [known_computeTotals ceiling sorted_ordered nodup_paths_ordered,
      known_computeTotals ceiling sorted_ordered nodup_paths_ordered,
      ordered_append new unimported, List.map_cons, lookup_settledTotals_cons (by exact other),
      settledTotals_cons_listed _ _ spared]

theorem totalsByPath_append (settings : Settings α) :
    totalsByPath (ordered (modules ++ [x])) settings
      = (x.path, totalOf (computeTotals (ordered (modules ++ [x])) settings) x.path)
        :: totalsByPath (ordered modules) settings := by
  have paths : (ordered (modules ++ [x])).map Module.path
      = x.path :: (ordered modules).map Module.path := by
    rw [ordered_append new unimported, List.map_cons]
  rw [totalsByPath, totalsByPath, eraseDups_of_nodup nodup_paths_ordered,
    eraseDups_of_nodup nodup_paths_ordered, paths, List.map_cons]
  refine congrArg _ (List.map_congr_left fun p hp => ?_)
  have other : p ≠ x.path := fun same => new (same ▸ mem_paths_ordered.1 hp)
  rw [totalOf_append new unimported settings other]

end

/-- A module that is listed last and that no other one imports stands in front of the order of the
others and loses its imports of itself. The others keep their order, their imports and what is
pruned from them, in whatever cycles they import each other, and their totals, whatever the
settings. -/
theorem ordered_append_totals (modules : List (Module α)) (x : Module α)
    (new : x.path ∉ modules.map Module.path)
    (unimported : ∀ m ∈ modules, x.path ∉ m.dependencies) :
    ordered (modules ++ [x])
        = { x with dependencies := x.dependencies.filter fun d => d ≠ x.path } :: ordered modules
      ∧ prunedImports (modules ++ [x]) = prunedImports modules
        ++ (x.dependencies.filter fun d => d = x.path).map (fun d => (x.path, d))
      ∧ ∀ settings : Settings α,
        (∃ total, totalsByPath (ordered (modules ++ [x])) settings
          = (x.path, total) :: totalsByPath (ordered modules) settings)
        ∧ ∀ m ∈ modules, ∃ total,
          (totalsByPath (ordered modules) settings).lookup m.path = some total
            ∧ (totalsByPath (ordered (modules ++ [x])) settings).lookup m.path = some total := by
  refine ⟨ordered_append new unimported, prunedImports_append new unimported, fun settings =>
    ⟨⟨_, totalsByPath_append new unimported settings⟩, fun m member => ?_⟩⟩
  have listed : m.path ∈ modules.map Module.path := List.mem_map_of_mem member
  have other : m.path ≠ x.path := fun same => new (same ▸ listed)
  have row := lookup_totalsByPath_of_mem settings (mem_paths_ordered.2 listed)
  refine ⟨_, row, ?_⟩
  rw [totalsByPath_append new unimported, List.lookup_cons, beq_eq_false_iff_ne.2 other]
  exact row

/-- A module that imports itself, modules that import each other and a file that is not listed. -/
def entrance : Module Number :=
  ⟨"main", ["b", "main", "a", "main", "x"], some ⟨"program", .int 3, none, [], []⟩⟩

theorem ordered_append_totals_tangled :
    entrance.path ∉ tangled.map Module.path ∧ (∀ m ∈ tangled, entrance.path ∉ m.dependencies)
    ∧ ordered (tangled ++ [entrance])
      = { entrance with dependencies := ["b", "a", "x"] } :: ordered tangled
    ∧ prunedImports (tangled ++ [entrance])
      = [("a", "a"), ("b", "a"), ("main", "main"), ("main", "main")]
    ∧ ∀ m ∈ tangled, ∃ total,
      (totalsByPath (ordered tangled) Settings.default).lookup m.path = some total
        ∧ (totalsByPath (ordered (tangled ++ [entrance])) Settings.default).lookup m.path
          = some total := by
  have new : entrance.path ∉ tangled.map Module.path := by decide
  have unimported : ∀ m ∈ tangled, entrance.path ∉ m.dependencies := by decide
  obtain ⟨order, pruned, totals⟩ := ordered_append_totals tangled entrance new unimported
  have before : prunedImports tangled = [("a", "a"), ("b", "a")] := by cbv
  rw [before] at pruned
  exact ⟨new, unimported, order, pruned, (totals Settings.default).2⟩

end ComplexityMeter.Graph
