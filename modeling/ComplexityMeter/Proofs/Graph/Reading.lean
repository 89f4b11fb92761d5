import ComplexityMeter.Proofs.Graph.Ordering
import ComplexityMeter.Proofs.Runs

/-!
# The files of a survey as modules

The listed files that take part in a survey, the modules that are read from them, and the imports
between the files. Where the listed files have different normal paths, another order of the list
gives the same files and the same modules in another order.
-/

namespace ComplexityMeter.Graph

open Syntax (Parser)

/-! ### The files that take part -/

def Step.source? : Step → Option Source
  | .take source => some source
  | .skip _ => none

theorem selected_eq (contents : Entries String) (paths : List String) :
    selected contents paths = (stepsAfter contents [] paths).filterMap Step.source? := by
  rw [selected, steps]
  apply List.filterMap_congr
  intro step _
  cases step <;> rfl

theorem filterMap_stepsAfter (contents : Entries String) {seen paths : List String}
    (distinct : (paths.map Path.normalize).Nodup) (unseen : ∀ p ∈ paths, Path.normalize p ∉ seen) :
    (stepsAfter contents seen paths).filterMap Step.source?
      = paths.filterMap fun p => (content? contents p).map (Source.mk (Path.normalize p)) := by
  induction paths generalizing seen with
  | nil => rfl
  | cons p rest ih =>
    obtain ⟨alone, distinct⟩ := List.nodup_cons.1 distinct
    obtain ⟨new, unseen⟩ := List.forall_mem_cons.1 unseen
    rw [stepsAfter]
    cases hp : content? contents p with
    | none =>
      simp only [List.filterMap_cons, Step.source?, hp, Option.map_none]
      exact ih distinct unseen
    | some text =>
      have later : ∀ q ∈ rest, Path.normalize q ∉ Path.normalize p :: seen := by
        intro q hq known
        rcases List.mem_cons.1 known with same | known
        · exact alone (same ▸ List.mem_map_of_mem hq)
        · exact unseen q hq known
      simp only [if_neg new, List.filterMap_cons, Step.source?, hp, Option.map_some]
      rw [ih distinct later]

/-- Where no two normal paths are the same, every listed file with content takes part. -/
theorem selected_of_distinct (contents : Entries String) {paths : List String}
    (distinct : (paths.map Path.normalize).Nodup) :
    selected contents paths
      = paths.filterMap fun p => (content? contents p).map (Source.mk (Path.normalize p)) := by
  rw [selected_eq, filterMap_stepsAfter contents distinct (by simp)]

theorem selected_perm (contents : Entries String) {paths paths' : List String}
    (distinct : (paths.map Path.normalize).Nodup) (perm : paths'.Perm paths) :
    (selected contents paths').Perm (selected contents paths) := by
  have distinct' := (perm.map Path.normalize).nodup_iff.2 distinct
  rw [selected_of_distinct contents distinct', selected_of_distinct contents distinct]
  exact perm.filterMap _

theorem distinct_stepsAfter (contents : Entries String) (seen paths : List String) :
    let taken := (stepsAfter contents seen paths).filterMap Step.source?
    (taken.map Source.path).Nodup ∧ ∀ s ∈ taken, s.path ∉ seen := by
  fun_induction stepsAfter contents seen paths with
  | case1 => simp
  | case2 seen path rest none ih => exact ih
  | case3 seen path rest text _ normal known ih => exact ih
  | case4 seen path rest text _ normal new ih =>
    obtain ⟨distinct, unseen⟩ := ih
    simp only [List.filterMap_cons, Step.source?, List.map_cons, List.nodup_cons,
      List.forall_mem_cons]
    refine ⟨⟨fun again => ?_, distinct⟩, new, fun s hs known => ?_⟩
    · obtain ⟨s, hs, same⟩ := List.mem_map.1 again
      exact unseen s hs (same ▸ List.mem_cons_self)
    · exact unseen s hs (List.mem_cons_of_mem normal known)

theorem nodup_paths_selected (contents : Entries String) (paths : List String) :
    ((selected contents paths).map Source.path).Nodup := by
  rw [selected_eq]
  exact (distinct_stepsAfter contents [] paths).1

/-! ### The modules of a survey -/

variable {α : Type} {modules modules' : List (Module α)}

theorem paths_closed (modules : List (Module α)) :
    (closed modules).map Module.path = modules.map Module.path := by
  simp [closed, Function.comp_def]

theorem closed_perm (perm : modules'.Perm modules) : (closed modules').Perm (closed modules) := by
  have same : closed modules' = modules'.map fun m =>
      { m with dependencies := m.dependencies.filter (modules.map Module.path).contains } := by
    apply List.map_congr_left
    intro m _
    congr 1
    apply List.filter_congr
    intro d _
    simp only [List.contains_eq_mem, (perm.map Module.path).mem_iff]
  rw [same]
  exact perm.map _

variable [Scalar α] {settings : Settings α} {parser : Parser} {sources : List Source}

theorem exists_readModules (settings : Settings α)
    (parses : ∀ s ∈ sources, ∃ t, parseSource parser s = .ok t) :
    ∃ modules, readModules parser settings sources = .ok modules := by
  simp only [readModules, mapM_eq_ok_iff]
  induction sources with
  | nil => exact ⟨[], .nil⟩
  | cons s rest ih =>
    obtain ⟨⟨t, ht⟩, parses⟩ := List.forall_mem_cons.1 parses
    obtain ⟨modules, read⟩ := ih parses
    exact ⟨moduleOf settings s t :: modules, .cons (by rw [ht]; rfl) read⟩

theorem forall₂_readModules (read : readModules parser settings sources = .ok modules) :
    List.Forall₂ (fun s m => ∃ t, parseSource parser s = .ok t ∧ moduleOf settings s t = m)
      sources modules := by
  refine List.Forall₂.imp ?_ (mapM_eq_ok_iff.1 read)
  intro s m h
  cases parsed : parseSource parser s with
  | error failure =>
    rw [parsed] at h
    cases h
  | ok t =>
    rw [parsed] at h
    exact ⟨t, rfl, Except.ok.inj h⟩

theorem exists_source_of_mem (read : readModules parser settings sources = .ok modules)
    {m : Module α} (member : m ∈ modules) :
    ∃ s ∈ sources, ∃ t, parseSource parser s = .ok t ∧ moduleOf settings s t = m :=
  exists_of_mem_right (forall₂_readModules read) member

theorem paths_readModules (read : readModules parser settings sources = .ok modules) :
    modules.map Module.path = sources.map Source.path := by
  have related := forall₂_readModules read
  clear read
  induction related with
  | nil => rfl
  | cons h _ ih =>
    obtain ⟨t, -, rfl⟩ := h
    exact congrArg (_ :: ·) ih

/-- A file of a survey imports a file of the survey. -/
def FileImports (parser : Parser) (defaultFile : String) (sources : List Source)
    (path target : String) : Prop :=
  ∃ s ∈ sources, s.path = path ∧ target ∈ sources.map Source.path ∧
    ∃ t, parseSource parser s = .ok t ∧ target ∈ dependencies defaultFile s.path t.root

/-- The edges between the modules of a survey are the imports between its files. -/
theorem fileImports_of_closed (read : readModules parser settings sources = .ok modules)
    {p d : String} (edge : Imports (closed modules) p d) :
    FileImports parser settings.defaultFile sources p d := by
  obtain ⟨o, ho, rfl, hd⟩ := edge
  obtain ⟨m, member, rfl⟩ := List.mem_map.1 ho
  obtain ⟨hd, listed⟩ := List.mem_filter.1 hd
  rw [List.contains_eq_mem, decide_eq_true_eq, paths_readModules read] at listed
  obtain ⟨s, hs, t, parsed, rfl⟩ := exists_source_of_mem read member
  exact ⟨s, hs, rfl, listed, t, parsed, hd⟩

end ComplexityMeter.Graph
