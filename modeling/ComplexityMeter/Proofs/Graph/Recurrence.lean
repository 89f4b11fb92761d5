import ComplexityMeter.Graph.Total
import ComplexityMeter.Proofs.Graph.Ordering

/-!
# Totals of a list in order

On a list in which every module stands before its imports, totals are computed from the end, so
every import has its total before it is asked for. The depth ceiling then decides only by which
exit a known total is read, and never its value: the totals are the one solution of the recurrence
that gives a module its own score and a damped share of its imports.
-/

namespace ComplexityMeter.Graph

open Score (Ceiling Result)

variable {α : Type} [Scalar α] [SquareRoot α]

/-- What a module scores by the totals of its imports, as far as there are any. -/
def impliedTotal (damping : α) (totals : List (String × α)) (m : Module α) : α :=
  match m.result with
  | none => 0.0
  | some result =>
    let own := result.score + Scalar.sum (result.parts.map Result.score)
    if m.dependencies = [] then own
    else
      own
        + damping * (m.dependencies.filterMap fun d => totals.lookup d).foldl (· + ·) 0.0
          / SquareRoot.squareRoot (m.dependencies.length : α)

/-- A total as it is read: what has none counts as zero. -/
def readTotal (known : List (String × α)) (path : String) : α :=
  (known.lookup path).getD 0.0

def settledTotals (damping : α) (listed : List String) : List (Module α) → List (String × α)
  | [] => []
  | m :: older =>
    let known := settledTotals damping listed older
    match m.result with
    | none => known
    | some result =>
      let imported := ((m.dependencies.filter (· ∈ listed)).map (readTotal known)).foldl (· + ·) 0.0
      (m.path, withImports damping (ownScore result) imported m.dependencies.length) :: known

variable {damping : α} {listed : List String} {modules older : List (Module α)}
  {settings : Settings α}

/-! ### Reading settled totals -/

theorem lookup_settledTotals_of_notMem {p : String} (h : p ∉ older.map Module.path) :
    (settledTotals damping listed older).lookup p = none := by
  induction older with
  | nil => rfl
  | cons m older ih =>
    obtain ⟨hne, hrest⟩ := not_or.1 (List.mem_cons.not.1 h)
    cases hr : m.result with
    | none => simpa [settledTotals, hr] using ih hrest
    | some result =>
      simp only [settledTotals, hr, List.lookup_cons, beq_eq_false_iff_ne.2 hne]
      exact ih hrest

theorem lookup_settledTotals_cons {m : Module α} {p : String} (h : p ≠ m.path) :
    (settledTotals damping listed (m :: older)).lookup p
      = (settledTotals damping listed older).lookup p := by
  cases hr : m.result with
  | none => simp [settledTotals, hr]
  | some result => simp [settledTotals, hr, List.lookup_cons, beq_eq_false_iff_ne.2 h]

theorem isSome_lookup_settledTotals (distinct : (older.map Module.path).Nodup) {m : Module α}
    (member : m ∈ older) :
    ((settledTotals damping listed older).lookup m.path).isSome = m.result.isSome := by
  induction older with
  | nil => cases member
  | cons first older ih =>
    obtain ⟨alone, distinct⟩ := List.nodup_cons.1 distinct
    rcases List.mem_cons.1 member with rfl | member
    · cases hr : m.result with
      | none =>
        simp only [settledTotals, hr]
        rw [lookup_settledTotals_of_notMem alone]
        rfl
      | some result => simp [settledTotals, hr]
    · have hne : m.path ≠ first.path := by
        rintro same
        exact alone (same ▸ List.mem_map_of_mem member)
      rw [lookup_settledTotals_cons hne]
      exact ih distinct member

/-! ### Totals that are read -/

theorem total_reads_known {waiting : List String} {m : Module α} {totals : Totals α} {value : α}
    (scored : m.result.isSome) (known : totals.get? m.path = some value) :
    (total modules settings waiting m totals).1 = value ∧
      (total modules settings waiting m totals).2.known = totals.known := by
  obtain ⟨result, hr⟩ := Option.isSome_iff_exists.1 scored
  cases deep : exceeds settings.moduleCeiling waiting.length with
  | true =>
    rw [total_of_exceeds deep, known]
    exact ⟨rfl, rfl⟩
  | false =>
    rw [total_of_known deep hr known]
    exact ⟨rfl, rfl⟩

theorem total_reads_unscored {waiting : List String} {m : Module α} {totals : Totals α}
    (record : find? modules m.path = some m) (unscored : m.result = none)
    (unknown : totals.get? m.path = none) :
    (total modules settings waiting m totals).1 = 0.0 ∧
      (total modules settings waiting m totals).2.known = totals.known := by
  cases deep : exceeds settings.moduleCeiling waiting.length with
  | true =>
    rw [total_of_exceeds deep, unknown, record]
    exact ⟨by simp [fileScore, unscored], rfl⟩
  | false =>
    rw [total_of_unscored deep unscored]
    exact ⟨rfl, rfl⟩

/-- A module before the one at hand is only read, whatever the depth at which it is met. -/
theorem total_reads_settled {waiting : List String} {m : Module α} {totals : Totals α}
    (settled : totals.known = settledTotals damping listed older)
    (distinct : (older.map Module.path).Nodup) (member : m ∈ older)
    (record : find? modules m.path = some m) :
    (total modules settings waiting m totals).1 = readTotal totals.known m.path ∧
      (total modules settings waiting m totals).2.known = totals.known := by
  have scored : (totals.known.lookup m.path).isSome = m.result.isSome := by
    rw [settled]
    exact isSome_lookup_settledTotals distinct member
  cases hr : m.result with
  | none =>
    have unknown : totals.known.lookup m.path = none := by simpa [hr] using scored
    rw [readTotal, unknown]
    exact total_reads_unscored record hr unknown
  | some result =>
    obtain ⟨value, known⟩ := Option.isSome_iff_exists.1 (scored.trans (by rw [hr]; rfl))
    rw [readTotal, known]
    exact total_reads_known (by rw [hr]; rfl) known

omit [SquareRoot α] in
variable (modules) in
/-- When every listed import is only read, what they add is the sum of what is read. -/
theorem foldl_addShare_of_read (waiting imports : List String)
    (share : Module α → Totals α → α × Totals α) {known : List (String × α)}
    (free : ∀ d ∈ imports, d ∈ modules.map Module.path → d ∉ waiting)
    (read : ∀ d ∈ imports, ∀ m, find? modules d = some m → ∀ t : Totals α, t.known = known →
      (share m t).1 = readTotal known d ∧ (share m t).2.known = known)
    (sofar : α × Totals α) (start : sofar.2.known = known) :
    (imports.foldl (addShare modules waiting share) sofar).1
        = ((imports.filter (· ∈ modules.map Module.path)).map
            (readTotal known)).foldl (· + ·) sofar.1 ∧
      (imports.foldl (addShare modules waiting share) sofar).2.known = known := by
  induction imports generalizing sofar with
  | nil => exact ⟨rfl, start⟩
  | cons d rest ih =>
    have ih := ih (fun e he => free e (List.mem_cons_of_mem _ he))
      (fun e he => read e (List.mem_cons_of_mem _ he))
    rw [List.foldl_cons]
    cases record : find? modules d with
    | none =>
      have skip : addShare modules waiting share sofar d = sofar := by rw [addShare, record]
      rw [skip, List.filter_cons_of_neg (by simpa using find?_eq_none.1 record)]
      exact ih sofar start
    | some m =>
      obtain ⟨member, same⟩ := find?_path record
      have hd : d ∈ modules.map Module.path := same ▸ List.mem_map_of_mem member
      obtain ⟨value, unchanged⟩ := read d List.mem_cons_self m record sofar.2 start
      have step : addShare modules waiting share sofar d
          = (sofar.1 + readTotal known d, (share m sofar.2).2) := by
        rw [addShare, record]
        simp only [if_neg (free d List.mem_cons_self hd), value]
      rw [step, List.filter_cons_of_pos (by simpa using hd)]
      exact ih _ unchanged

/-! ### The list from its end -/

/-- A list in order gets the settled totals, at every place of it. -/
theorem known_foldr_computeTotal (ceiling : exceeds settings.moduleCeiling 0 = false)
    (sorted : Sorted modules) (distinct : (modules.map Module.path).Nodup)
    {newer older : List (Module α)} (split : modules = newer ++ older) :
    (older.foldr (fun m totals => computeTotal modules settings totals m) ⟨[], []⟩).known
      = settledTotals settings.damping (modules.map Module.path) older := by
  induction older generalizing newer with
  | nil => rfl
  | cons m older ih =>
    have settled := @ih (newer ++ [m]) (by simpa using split)
    have distinct_suffix : ((m :: older).map Module.path).Nodup := by
      rw [split, List.map_append] at distinct
      exact (List.nodup_append.1 distinct).2.1
    obtain ⟨alone, distinct_older⟩ := List.nodup_cons.1 distinct_suffix
    have member : m ∈ modules := split ▸ List.mem_append_right _ List.mem_cons_self
    rw [List.foldr_cons]
    generalize older.foldr (fun m totals => computeTotal modules settings totals m) ⟨[], []⟩
      = totals at settled ⊢
    have unknown : totals.get? m.path = none := by
      rw [Totals.get?, settled]
      exact lookup_settledTotals_of_notMem alone
    rw [computeTotal, unknown]
    cases hr : m.result with
    | none =>
      rw [total_of_unscored ceiling hr]
      simp only [settledTotals, hr]
      exact settled
    | some result =>
      have reads := foldl_addShare_of_read modules [m.path] m.dependencies
        (total modules settings [m.path]) ?free ?read (0.0, totals) rfl
      case free =>
        intro d hd listed waits
        obtain rfl := List.mem_singleton.1 waits
        exact alone (sorted newer m older split _ hd listed)
      case read =>
        intro d hd imported record t known
        obtain ⟨listed, rfl⟩ := find?_path record
        have later := sorted newer m older split _ hd (List.mem_map_of_mem listed)
        obtain ⟨other, other_member, same⟩ := List.mem_map.1 later
        have other_listed : other ∈ modules :=
          split ▸ List.mem_append_right _ (List.mem_cons_of_mem _ other_member)
        obtain rfl : other = imported :=
          List.inj_on_of_nodup_map distinct other_listed listed same
        rw [← known] at settled ⊢
        exact total_reads_settled settled distinct_older other_member record
      rw [total_of_unknown ceiling hr unknown List.not_mem_nil (List.mem_map_of_mem member)]
      simp only [Totals.record, settledTotals, hr]
      rw [importedTotal, reads.1, reads.2, settled]

theorem known_computeTotals (ceiling : exceeds settings.moduleCeiling 0 = false)
    (sorted : Sorted modules) (distinct : (modules.map Module.path).Nodup) :
    (computeTotals modules settings).known
      = settledTotals settings.damping (modules.map Module.path) modules := by
  rw [computeTotals, List.foldl_reverse]
  exact known_foldr_computeTotal ceiling sorted distinct (List.nil_append modules).symm

/-! ### The recurrence -/

omit [Scalar α] [SquareRoot α] in
theorem Sorted.mem_tail (sorted : Sorted modules) {newer rest : List (Module α)} {first m : Module α}
    (split : modules = newer ++ first :: rest) (member : m ∈ first :: rest) {d : String}
    (hd : d ∈ m.dependencies) (listed : d ∈ modules.map Module.path) :
    d ∈ rest.map Module.path := by
  rcases List.mem_cons.1 member with rfl | member
  · exact sorted newer m rest split d hd listed
  · obtain ⟨between, after, rfl⟩ := List.append_of_mem member
    have later := sorted (newer ++ first :: between) m after (by simpa using split) d hd listed
    simp only [List.map_append, List.map_cons, List.mem_append, List.mem_cons]
    exact .inr (.inr later)

variable (damping) in
/-- Settled totals solve the recurrence, at every place of the list. -/
theorem settledTotals_recurrence (sorted : Sorted modules)
    (distinct : (modules.map Module.path).Nodup) {newer older : List (Module α)}
    (split : modules = newer ++ older) {m : Module α} (member : m ∈ older) :
    readTotal (settledTotals damping (modules.map Module.path) older) m.path =
      match m.result with
      | none => 0.0
      | some result =>
        withImports damping (ownScore result)
          (((m.dependencies.filter (· ∈ modules.map Module.path)).map
            (readTotal (settledTotals damping (modules.map Module.path) older))).foldl (· + ·) 0.0)
          m.dependencies.length := by
  induction older generalizing newer with
  | nil => cases member
  | cons first rest ih =>
    have alone : first.path ∉ rest.map Module.path := by
      rw [split, List.map_append] at distinct
      exact (List.nodup_cons.1 (List.nodup_append.1 distinct).2.1).1
    have shares : (m.dependencies.filter (· ∈ modules.map Module.path)).map
          (readTotal (settledTotals damping (modules.map Module.path) (first :: rest)))
        = (m.dependencies.filter (· ∈ modules.map Module.path)).map
          (readTotal (settledTotals damping (modules.map Module.path) rest)) := by
      apply List.map_congr_left
      intro d hd
      obtain ⟨hd, listed⟩ := List.mem_filter.1 hd
      have later := sorted.mem_tail split member hd (by simpa using listed)
      rw [readTotal, readTotal, lookup_settledTotals_cons]
      rintro rfl
      exact alone later
    rw [shares]
    rcases List.mem_cons.1 member with rfl | member
    · cases hr : m.result with
      | none =>
        simp only [readTotal, settledTotals, hr]
        rw [lookup_settledTotals_of_notMem alone]
        rfl
      | some result => simp [readTotal, settledTotals, hr]
    · have behind : m.path ≠ first.path := by
        rintro same
        exact alone (same ▸ List.mem_map_of_mem member)
      rw [readTotal, lookup_settledTotals_cons behind]
      exact @ih (newer ++ [first]) (by simpa using split) member

/-! ### Totals by path -/

omit [Scalar α] [SquareRoot α] in
theorem lookup_graph (paths : List String) (f : String → α) (p : String) :
    (paths.map fun q => (q, f q)).lookup p = if p ∈ paths then some (f p) else none := by
  induction paths with
  | nil => rfl
  | cons q rest ih =>
    by_cases h : p = q
    · simp [h]
    · simp [List.lookup_cons, beq_eq_false_iff_ne.2 h, ih, h]

omit [Scalar α] [SquareRoot α] in
theorem filterMap_lookup_graph (paths imports : List String) (f : String → α) :
    (imports.filterMap fun d => (paths.map fun q => (q, f q)).lookup d)
      = (imports.filter (· ∈ paths)).map f := by
  induction imports with
  | nil => rfl
  | cons d rest ih =>
    by_cases h : d ∈ paths <;> simp [lookup_graph, h, ← ih]

omit [Scalar α] [SquareRoot α] in
theorem eraseDups_of_nodup {paths : List String} (distinct : paths.Nodup) :
    paths.eraseDups = paths := by
  induction paths with
  | nil => rfl
  | cons p rest ih =>
    obtain ⟨alone, distinct⟩ := List.nodup_cons.1 distinct
    have others : rest.filter (fun q => !q == p) = rest := by
      apply List.filter_eq_self.2
      intro q hq
      have hne : q ≠ p := by
        rintro rfl
        exact alone hq
      simpa using hne
    rw [List.eraseDups_cons, others, ih distinct]

theorem lookup_totalsByPath_of_mem (settings : Settings α) {p : String}
    (listed : p ∈ modules.map Module.path) :
    (totalsByPath modules settings).lookup p
      = some (totalOf (computeTotals modules settings) p) := by
  rw [totalsByPath, lookup_graph, if_pos (List.mem_eraseDups.2 listed)]

theorem totalsByPath_of_sorted (ceiling : exceeds settings.moduleCeiling 0 = false)
    (sorted : Sorted modules) (distinct : (modules.map Module.path).Nodup) :
    totalsByPath modules settings = (modules.map Module.path).map fun p =>
      (p, readTotal (settledTotals settings.damping (modules.map Module.path) modules) p) := by
  simp only [totalsByPath, eraseDups_of_nodup distinct, totalOf, Totals.get?, readTotal]
  rw [known_computeTotals ceiling sorted distinct]

theorem not_exceeds_zero {ceiling : Ceiling} (h : ∀ bound, ceiling = .level bound → 0 ≤ bound) :
    exceeds ceiling 0 = false := by
  cases ceiling with
  | level bound => simpa [exceeds] using h bound rfl
  | unlimited => rfl

/-- The totals of an ordered list are listed by its paths, and each is what the totals of the
imports imply. No depth ceiling that admits the modules of the list themselves changes them. -/
theorem totalsByPath_ordered (modules : List (Module α)) (settings : Settings α)
    (admits : ∀ bound, settings.moduleCeiling = .level bound → 0 ≤ bound) :
    let order := ordered modules
    let totals := totalsByPath order settings
    totals.map Prod.fst = order.map Module.path ∧
      (∀ m ∈ order, totals.lookup m.path = some (impliedTotal settings.damping totals m)) ∧
      ∀ ceiling, (∀ bound, ceiling = .level bound → 0 ≤ bound) →
        totalsByPath order { settings with moduleCeiling := ceiling } = totals := by
  intro order totals
  have sorted : Sorted order := sorted_ordered
  have distinct : (order.map Module.path).Nodup := nodup_paths_ordered
  have table : totals = _ := totalsByPath_of_sorted (not_exceeds_zero admits) sorted distinct
  refine ⟨?_, ?_, ?_⟩
  · simp [table, Function.comp_def]
  · intro m member
    have recurrence := settledTotals_recurrence settings.damping sorted distinct
      (List.nil_append order).symm member
    rw [table, lookup_graph, if_pos (List.mem_map_of_mem member), recurrence, impliedTotal]
    cases m.result with
    | none => rfl
    | some result =>
      simp only [withImports, ownScore, List.length_eq_zero_iff, filterMap_lookup_graph]
  · intro ceiling admits'
    rw [table]
    exact totalsByPath_of_sorted (not_exceeds_zero admits') sorted distinct

theorem totalsByPath_tangled :
    let settings : Settings Number := { Settings.default with moduleCeiling := .level 0 }
    let totals := totalsByPath (ordered tangled) settings
    (∀ bound, settings.moduleCeiling = .level bound → 0 ≤ bound) ∧
      totals.map Prod.fst = (ordered tangled).map Module.path ∧
      (∀ m ∈ ordered tangled,
        totals.lookup m.path = some (impliedTotal settings.damping totals m)) ∧
      totals.map (fun entry => (entry.1, entry.2.toFloat))
        = [("a", 6.1547005383792515), ("b", 2.0), ("c", 0.0)] := by
  intro settings totals
  have admits : ∀ bound, settings.moduleCeiling = .level bound → 0 ≤ bound := by
    intro bound h
    cases h
    exact Int.le_refl 0
  obtain ⟨paths, implied, -⟩ := totalsByPath_ordered tangled settings admits
  refine ⟨admits, paths, implied, ?_⟩
  have order : ordered tangled =
      [⟨"a", ["b", "b", "x"], some ⟨"program", .int 4, none, [], [⟨"string", .int 1, none, [], []⟩]⟩⟩,
        ⟨"b", ["c", "c"], some ⟨"program", .int 2, none, [], []⟩⟩, ⟨"c", [], none⟩] := by cbv
  change totals.map Prod.fst = (ordered tangled).map Module.path at paths
  change ∀ m ∈ ordered tangled, totals.lookup m.path = some (impliedTotal _ totals m) at implied
  clear_value totals
  rw [order] at paths implied
  obtain ⟨x, y, z, rfl⟩ : ∃ x y z, totals = [("a", x), ("b", y), ("c", z)] := by
    simp only [List.map_cons, List.map_nil, List.map_eq_cons_iff, List.map_eq_nil_iff] at paths
    obtain ⟨⟨_, x⟩, _, rfl, rfl, ⟨_, y⟩, _, rfl, rfl, ⟨_, z⟩, _, rfl, rfl, rfl⟩ := paths
    exact ⟨x, y, z, rfl⟩
  simp only [List.forall_mem_cons] at implied
  obtain ⟨a, b, c, -⟩ := implied
  obtain rfl : z = 0.0 := Option.some.inj c
  have hy : y = .int 2 + .int 0
      + settings.damping * (0.0 + 0.0 + 0.0) / SquareRoot.squareRoot (.int 2) :=
    Option.some.inj b
  have hx : x = .int 4 + (.int 0 + .int 1)
      + settings.damping * (0.0 + y + y) / SquareRoot.squareRoot (.int 3) :=
    Option.some.inj a
  rw [hx, hy]
  decide +kernel

end ComplexityMeter.Graph
