import ComplexityMeter.Proofs.Graph.Refusal
import ComplexityMeter.Proofs.Graph.Recurrence

/-!
# Independence of the order of a list

Another order of the same files leads the search another way, and the totals are computed in
another order. Where no file imports itself, directly or through others, none of this shows:
nothing is pruned, and the totals solve a recurrence that has one solution, since it gives every
module its total from those that stand behind it.
-/

namespace ComplexityMeter.Graph

open Relation
open Syntax (Language Node Parser Tree)

variable {α : Type} {modules modules' order order' : List (Module α)}

/-! ### Lists without cycles -/

theorem prunedImports_of_acyclic (distinct : (modules.map Module.path).Nodup)
    (acyclic : ∀ p, ¬ TransGen (Imports modules) p p) : prunedImports modules = [] := by
  apply List.eq_nil_iff_forall_not_mem.2
  intro e he
  have back : ReflTransGen (Imports modules) e.2 e.1 :=
    ReflTransGen.mono (fun _ _ => Imports.of_ordered distinct) _ _ (cycle_of_mem_pruned he)
  exact acyclic e.1 (TransGen.head' (imports_of_mem_pruned distinct he) back)

/-- A list without cycles is only put in another order. -/
theorem ordered_perm (distinct : (modules.map Module.path).Nodup)
    (acyclic : ∀ p, ¬ TransGen (Imports modules) p p) : (ordered modules).Perm modules := by
  have same : ∀ m ∈ modules, ∀ o ∈ ordered modules, o.path = m.path → o = m := by
    intro m member o ho path
    have dependencies : o.dependencies = m.dependencies := by
      rw [kept_ordered distinct member ho path, prunedImports_of_acyclic distinct acyclic]
      simp
    have result : o.result = m.result := by
      rw [(mem_ordered.1 ho).2, path, find?_of_mem distinct member]
      rfl
    obtain ⟨_, _, _⟩ := o
    obtain ⟨_, _, _⟩ := m
    simp_all
  apply (List.perm_ext_iff_of_nodup nodup_paths_ordered.of_map distinct.of_map).2
  intro m
  constructor
  · intro ho
    obtain ⟨listed, member, path⟩ := exists_mem_of_ordered ho
    exact same listed member m ho path.symm ▸ member
  · intro member
    obtain ⟨o, ho, path⟩ := exists_mem_ordered member
    exact same m member o ho path ▸ ho

theorem Imports.of_perm (perm : modules'.Perm modules) {p d : String}
    (edge : Imports modules' p d) : Imports modules p d := by
  obtain ⟨m, member, hp, hd⟩ := edge
  exact ⟨m, perm.mem_iff.1 member, hp, hd⟩

/-! ### One solution of the recurrence -/

variable [Scalar α] [SquareRoot α] {settings : Settings α}

theorem settledTotals_perm (damping : α) (perm : order'.Perm order)
    (distinct : (order.map Module.path).Nodup) (sorted : Sorted order) (sorted' : Sorted order')
    {newer older : List (Module α)} (split : order = newer ++ older) {m : Module α}
    (member : m ∈ older) :
    readTotal (settledTotals damping (order'.map Module.path) order') m.path
      = readTotal (settledTotals damping (order.map Module.path) order) m.path := by
  induction older generalizing newer m with
  | nil => cases member
  | cons first rest ih =>
    have paths := perm.map Module.path
    have listed : m ∈ order := split ▸ List.mem_append_right _ member
    have shares : (m.dependencies.filter (· ∈ order'.map Module.path)).map
          (readTotal (settledTotals damping (order'.map Module.path) order'))
        = (m.dependencies.filter (· ∈ order.map Module.path)).map
          (readTotal (settledTotals damping (order.map Module.path) order)) := by
      have same : m.dependencies.filter (· ∈ order'.map Module.path)
          = m.dependencies.filter (· ∈ order.map Module.path) :=
        List.filter_congr fun d _ => by simp only [paths.mem_iff]
      rw [same]
      apply List.map_congr_left
      intro d hd
      obtain ⟨hd, known⟩ := List.mem_filter.1 hd
      obtain ⟨imported, behind, rfl⟩ :=
        List.mem_map.1 (sorted.mem_tail split member hd (by simpa using known))
      exact @ih (newer ++ [first]) (by simpa using split) imported behind
    rw [settledTotals_recurrence damping sorted' (paths.nodup_iff.2 distinct)
        (List.nil_append order').symm (perm.mem_iff.2 listed),
      settledTotals_recurrence damping sorted distinct (List.nil_append order).symm listed, shares]

/-- Below a ceiling that admits no module nothing is ever remembered. -/
theorem known_computeTotals_of_exceeds (ceiling : exceeds settings.moduleCeiling 0 = true) :
    (computeTotals modules settings).known = [] := by
  have steps (rest : List (Module α)) (totals : Totals α) (none : totals.known = []) :
      (rest.foldl (computeTotal modules settings) totals).known = [] := by
    induction rest generalizing totals with
    | nil => exact none
    | cons m rest ih =>
      refine ih _ ?_
      have unknown : totals.get? m.path = Option.none := by rw [Totals.get?, none]; rfl
      rw [computeTotal, unknown, total_of_exceeds ceiling]
      exact none
  exact steps _ _ rfl

theorem totalOf_computeTotals_perm (perm : order'.Perm order)
    (distinct : (order.map Module.path).Nodup) (sorted : Sorted order) (sorted' : Sorted order')
    {m : Module α} (member : m ∈ order) :
    totalOf (computeTotals order' settings) m.path
      = totalOf (computeTotals order settings) m.path := by
  have distinct' : (order'.map Module.path).Nodup := (perm.map Module.path).nodup_iff.2 distinct
  unfold totalOf Totals.get?
  cases ceiling : exceeds settings.moduleCeiling 0 with
  | true => rw [known_computeTotals_of_exceeds ceiling, known_computeTotals_of_exceeds ceiling]
  | false =>
    rw [known_computeTotals ceiling sorted' distinct', known_computeTotals ceiling sorted distinct]
    exact settledTotals_perm _ perm distinct sorted sorted' (List.nil_append order).symm member

/-- The rows of modules without cycles do not depend on the order of the modules. -/
theorem rows_perm (settings : Settings α) (perm : modules'.Perm modules)
    (distinct : (modules.map Module.path).Nodup)
    (acyclic : ∀ p, ¬ TransGen (Imports modules) p p) :
    (rows settings modules').Perm (rows settings modules) := by
  have distinct' : (modules'.map Module.path).Nodup := (perm.map Module.path).nodup_iff.2 distinct
  have acyclic' : ∀ p, ¬ TransGen (Imports modules') p p := fun p cycle =>
    acyclic p (TransGen.mono (fun _ _ => Imports.of_perm perm) _ _ cycle)
  have orders : (ordered modules').Perm (ordered modules) :=
    (ordered_perm distinct' acyclic').trans (perm.trans (ordered_perm distinct acyclic).symm)
  have same : rows settings modules' = (ordered modules').map fun m =>
      ⟨m.path, fileScore m, totalOf (computeTotals (ordered modules) settings) m.path,
        m.dependencies, m.result⟩ := by
    apply List.map_congr_left
    intro m member
    rw [totalOf_computeTotals_perm orders nodup_paths_ordered sorted_ordered sorted_ordered
      (orders.mem_iff.1 member)]
  rw [same]
  exact orders.map _

/-- The rows of modules by the totals that are settled from the end of their order. -/
theorem rows_eq (ceiling : exceeds settings.moduleCeiling 0 = false) (modules : List (Module α)) :
    rows settings modules =
      let order := ordered modules
      let totals := settledTotals settings.damping (order.map Module.path) order
      order.map fun m =>
        ⟨m.path, fileScore m, readTotal totals m.path, m.dependencies, m.result⟩ := by
  simp only [rows, totalOf, Totals.get?, readTotal]
  rw [known_computeTotals ceiling sorted_ordered nodup_paths_ordered]

theorem paths_rows (settings : Settings α) (modules : List (Module α)) :
    (rows settings modules).map Row.path = (ordered modules).map Module.path := by
  simp [rows, Function.comp_def]

/-! ### Surveys -/

/-- Both surveys give the same rows, the order aside, or both are refused: each for some file, or both
for a total without a value. -/
inductive Alike (refuses : Failure → Prop) :
    Except Failure (List (Row α)) → Except Failure (List (Row α)) → Prop
  | rows {rows rows' : List (Row α)} (perm : rows'.Perm rows) : Alike refuses (.ok rows) (.ok rows')
  | files {failure failure' : Failure} (refused : refuses failure) (refused' : refuses failure') :
      Alike refuses (.error failure) (.error failure')
  | totals : Alike refuses (.error .tooLarge) (.error .tooLarge)

variable {parser : Parser}

theorem survey_eq_ok {contents : Entries String} {paths paths' : List String}
    (settings : Settings α) (distinct : (paths.map Path.normalize).Nodup) (perm : paths'.Perm paths)
    (parses : ∀ s ∈ selected contents paths, ∃ t, parseSource parser s = .ok t)
    (acyclic : ∀ p, ¬ TransGen
      (FileImports parser settings.defaultFile (selected contents paths)) p p) :
    ∃ rows rows', survey parser settings contents paths = .ok rows
      ∧ survey parser settings contents paths' = .ok rows'
      ∧ (rows.map Row.path).Perm ((selected contents paths).map Source.path)
      ∧ (rows.map Row.path).Nodup ∧ rows'.Perm rows := by
  obtain ⟨modules, read⟩ := exists_readModules settings parses
  obtain ⟨modules', read', same⟩ := mapM_perm (selected_perm contents distinct perm) read
  have listed : (closed modules).map Module.path = (selected contents paths).map Source.path := by
    rw [paths_closed, paths_readModules read]
  have distinct_modules : ((closed modules).map Module.path).Nodup := by
    rw [listed]
    exact nodup_paths_selected contents paths
  have acyclic_modules : ∀ p, ¬ TransGen (Imports (closed modules)) p p := fun p cycle =>
    acyclic p (TransGen.mono (fun _ _ => fileImports_of_closed read) _ _ cycle)
  refine ⟨rows settings (closed modules), rows settings (closed modules'), ?_, ?_, ?_, ?_, ?_⟩
  · rw [survey, read]
    rfl
  · rw [survey, readModules, read']
    rfl
  · rw [paths_rows, ← listed]
    exact (ordered_perm distinct_modules acyclic_modules).map Module.path
  · rw [paths_rows]
    exact nodup_paths_ordered
  · exact rows_perm settings (closed_perm same) distinct_modules acyclic_modules

/-! ### Surveys in numbers that may outgrow the doubles -/

theorem alike_boundedSurvey {contents : Entries String} {paths paths' : List String}
    (settings : Settings Number) (distinct : (paths.map Path.normalize).Nodup)
    (perm : paths'.Perm paths)
    (parses : ∀ s ∈ selected contents paths, ∃ t, parseSource parser s = .ok t)
    (acyclic : ∀ p, ¬ TransGen
      (FileImports parser settings.defaultFile (selected contents paths)) p p) :
    Alike (fun failure => ∃ s ∈ selected contents paths, s.IsRefused parser settings failure)
      (boundedSurvey parser settings contents paths)
      (boundedSurvey parser settings contents paths') := by
  obtain ⟨rows, rows', surveyed, surveyed', -, -, same⟩ :=
    survey_eq_ok settings distinct perm parses acyclic
  have files := selected_perm contents distinct perm
  by_cases passed : ∀ s ∈ selected contents paths, ∀ failure,
      ¬ s.IsRefused parser settings failure
  · have passed' : ∀ s ∈ selected contents paths', ∀ failure,
        ¬ s.IsRefused parser settings failure := fun s hs => passed s (files.mem_iff.1 hs)
    rw [boundedSurvey_of_passed passed surveyed, boundedSurvey_of_passed passed' surveyed']
    simp only [same.mem_iff]
    split_ifs
    · exact .rows same
    · exact .totals
  · obtain ⟨failure, bounded, refused⟩ := exists_boundedSurvey_of_not_passed passed
    have not_passed' : ¬ ∀ s ∈ selected contents paths', ∀ failure,
        ¬ s.IsRefused parser settings failure :=
      fun passed' => passed fun s hs => passed' s (files.mem_iff.2 hs)
    obtain ⟨failure', bounded', s, hs, refused'⟩ :=
      exists_boundedSurvey_of_not_passed not_passed'
    rw [bounded, bounded']
    exact .files refused ⟨s, files.mem_iff.1 hs, refused'⟩

/-- Where the files of a list have different normal paths, can be parsed and do not import each other
in a cycle, a survey has a row for each file that takes part, and the rows are the same in whatever
order the files are listed: every file keeps its score, its total, its imports and its details. In
numbers that may outgrow the doubles, it is also refused or not whatever the order. -/
theorem survey_perm (parser : Parser) (contents : Entries String) {paths paths' : List String}
    (distinct : (paths.map Path.normalize).Nodup) (perm : paths'.Perm paths)
    (parses : ∀ s ∈ selected contents paths, ∃ t, parseSource parser s = .ok t)
    {defaultFile : String}
    (acyclic : ∀ p, ¬ TransGen (FileImports parser defaultFile (selected contents paths)) p p) :
    (∀ {α : Type} [Scalar α] [SquareRoot α] (settings : Settings α),
      settings.defaultFile = defaultFile →
        ∃ rows rows', survey parser settings contents paths = .ok rows
          ∧ survey parser settings contents paths' = .ok rows'
          ∧ (rows.map Row.path).Perm ((selected contents paths).map Source.path)
          ∧ (rows.map Row.path).Nodup ∧ rows'.Perm rows)
    ∧ ∀ settings : Settings Number, settings.defaultFile = defaultFile →
        Alike (fun failure => ∃ s ∈ selected contents paths, s.IsRefused parser settings failure)
          (boundedSurvey parser settings contents paths)
          (boundedSurvey parser settings contents paths') := by
  refine ⟨?_, ?_⟩
  · rintro α _ _ settings rfl
    exact survey_eq_ok settings distinct perm parses acyclic
  · rintro settings rfl
    exact alike_boundedSurvey settings distinct perm parses acyclic

def importFrom (source : String) (identity : Nat) : Node :=
  ⟨"import_statement", true, false, false, none, "", 0, 0, identity,
    [⟨"string", true, false, false, some "source", source, 0, 0, identity + 1, []⟩]⟩

/-- Reads three texts: the first imports the others, the second the last. -/
def diamondParser : Parser := fun _ code =>
  ⟨"program", true, false, false, none, code, 0, 0, 0,
    if code = "top" then [importFrom "'./left'" 1, importFrom "'./right.ts'" 3]
    else if code = "left" then [importFrom "'../src/right'" 1, importFrom "'./missing'" 3]
    else []⟩

def diamondPaths : List String := ["src/top.ts", "src/./left.ts", "src/right.ts"]

def diamondContents : Entries String :=
  [("src/right.ts", "right"), ("src/top.ts", "top"), ("src/./left.ts", "left")]

/-- The place of a file in an order in which every file stands before what it imports. -/
def diamondRank (path : String) : Nat :=
  ["src/top.ts", "src/left.ts", "src/right.ts"].idxOf path

theorem parseSource_diamond (s : Source) : parseSource diamondParser s
    = .ok ⟨diamondParser .typescript s.content, s.path, Language.ofPath s.path⟩ := by
  simp [parseSource, Tree.parse, diamondParser]

def diamondFiles : List Source :=
  [⟨"src/top.ts", "top"⟩, ⟨"src/left.ts", "left"⟩, ⟨"src/right.ts", "right"⟩]

/-- The rows of the three files: the first imports both others, the second the last. -/
theorem survey_diamond :
    ∃ rows, survey diamondParser (Settings.default (α := Number)) diamondContents diamondPaths
        = .ok rows
      ∧ rows.map (fun r => (r.path, r.dependencies, r.fileScore.toFloat, r.total.toFloat))
        = [("src/top.ts", ["src/left.ts", "src/right.ts"], 3.0, 7.2980970388562794),
          ("src/left.ts", ["src/right.ts"], 3.0, 5.5), ("src/right.ts", [], 1.0, 1.0)] := by
  have listed : selected diamondContents diamondPaths = diamondFiles := by decide +kernel
  have whole : ∀ s ∈ diamondFiles, s.isMalformed diamondParser = false := by decide +kernel
  let file (s : Source) : Option (Score.Result Number) :=
    some (moduleFileResult Settings.default (s.tree diamondParser))
  let imports (s : Source) : List String :=
    (dependencies "mod.ts" s.path (s.tree diamondParser).root).filter
      (diamondFiles.map Source.path).contains
  have modules : closed (diamondFiles.map fun s =>
        moduleOf (Settings.default (α := Number)) s (s.tree diamondParser))
      = [⟨"src/top.ts", ["src/left.ts", "src/right.ts"], file ⟨"src/top.ts", "top"⟩⟩,
        ⟨"src/left.ts", ["src/right.ts"], file ⟨"src/left.ts", "left"⟩⟩,
        ⟨"src/right.ts", [], file ⟨"src/right.ts", "right"⟩⟩] := by
    have top : imports ⟨"src/top.ts", "top"⟩ = ["src/left.ts", "src/right.ts"] := by
      decide +kernel
    have left : imports ⟨"src/left.ts", "left"⟩ = ["src/right.ts"] := by decide +kernel
    have right : imports ⟨"src/right.ts", "right"⟩ = [] := by decide +kernel
    change ([⟨"src/top.ts", imports ⟨"src/top.ts", "top"⟩, _⟩,
      ⟨"src/left.ts", imports ⟨"src/left.ts", "left"⟩, _⟩,
      ⟨"src/right.ts", imports ⟨"src/right.ts", "right"⟩, _⟩] : List (Module Number)) = _
    rw [top, left, right]
    rfl
  have order (r r' r'' : Option (Score.Result Number)) :
      ordered [⟨"src/top.ts", ["src/left.ts", "src/right.ts"], r⟩,
          ⟨"src/left.ts", ["src/right.ts"], r'⟩, ⟨"src/right.ts", [], r''⟩]
        = [⟨"src/top.ts", ["src/left.ts", "src/right.ts"], r⟩,
          ⟨"src/left.ts", ["src/right.ts"], r'⟩, ⟨"src/right.ts", [], r''⟩] := by
    cbv
  refine ⟨_, survey_of_whole listed whole, ?_⟩
  rw [rows_eq (by decide), modules, order]
  decide +kernel

theorem survey_perm_diamond :
    (diamondPaths.map Path.normalize).Nodup
    ∧ (∃ rows rows', survey diamondParser (Settings.default (α := Number)) diamondContents
          diamondPaths = .ok rows
        ∧ survey diamondParser Settings.default diamondContents diamondPaths.reverse = .ok rows'
        ∧ rows'.Perm rows
        ∧ rows.map (fun r => (r.path, r.dependencies, r.fileScore.toFloat, r.total.toFloat))
          = [("src/top.ts", ["src/left.ts", "src/right.ts"], 3.0, 7.2980970388562794),
            ("src/left.ts", ["src/right.ts"], 3.0, 5.5), ("src/right.ts", [], 1.0, 1.0)])
    ∧ Alike (fun failure => ∃ s ∈ selected diamondContents diamondPaths,
          s.IsRefused diamondParser Settings.default failure)
        (boundedSurvey diamondParser Settings.default diamondContents diamondPaths)
        (boundedSurvey diamondParser Settings.default diamondContents diamondPaths.reverse) := by
  have distinct : (diamondPaths.map Path.normalize).Nodup := by decide +kernel
  have parses : ∀ s ∈ selected diamondContents diamondPaths,
      ∃ t, parseSource diamondParser s = .ok t :=
    fun s _ => ⟨_, parseSource_diamond s⟩
  have later : (selected diamondContents diamondPaths).all (fun s =>
      (dependencies "mod.ts" s.path (diamondParser .typescript s.content)).all fun d =>
        decide (diamondRank s.path < diamondRank d)) = true := by decide +kernel
  have rising : ∀ p d,
      FileImports diamondParser "mod.ts" (selected diamondContents diamondPaths) p d →
        diamondRank p < diamondRank d := by
    rintro _ d ⟨s, hs, rfl, -, t, parsed, hd⟩
    obtain rfl := Except.ok.inj ((parseSource_diamond s).symm.trans parsed)
    exact of_decide_eq_true (List.all_eq_true.1 (List.all_eq_true.1 later s hs) d hd)
  have acyclic : ∀ p, ¬ TransGen
      (FileImports diamondParser "mod.ts" (selected diamondContents diamondPaths)) p p := by
    intro p cycle
    have climb : TransGen (· < ·) (diamondRank p) (diamondRank p) :=
      TransGen.lift diamondRank rising _ _ cycle
    rw [transGen_eq_self] at climb
    exact Nat.lt_irrefl _ climb
  obtain ⟨exactly, bounded⟩ := survey_perm diamondParser diamondContents distinct
    (List.reverse_perm diamondPaths) parses acyclic
  obtain ⟨rows, rows', surveyed, surveyed', -, -, same⟩ :=
    exactly (Settings.default (α := Number)) rfl
  obtain ⟨values, surveyed_values, evaluated⟩ := survey_diamond
  obtain rfl : values = rows := Except.ok.inj (surveyed_values.symm.trans surveyed)
  exact ⟨distinct, ⟨values, rows', surveyed, surveyed', same, evaluated⟩, bounded _ rfl⟩

end ComplexityMeter.Graph
