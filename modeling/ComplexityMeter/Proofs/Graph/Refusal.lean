import ComplexityMeter.Proofs.Graph.Reading

/-!
# Refused surveys

A survey in exact numbers is refused for a syntax error and for nothing else. In numbers that may
outgrow the doubles a file is also refused for an import of the directory that paths start from, if
no default file can stand there, and for a score without a value. The first file that is refused
decides the refusal of a survey; if none is, a total without a value does.
-/

namespace ComplexityMeter.Graph

open Syntax (Fault Language Node Parser Tree)

/-! ### Files that are refused -/

namespace Source

variable (parser : Parser) (s : Source)

/-- What the parser makes of a file, in the language of its normal path. -/
def tree : Tree :=
  ⟨parser (Language.ofPath s.path) s.content, s.path, Language.ofPath s.path⟩

def isMalformed : Bool :=
  (s.tree parser).root.hasError

def refusal : Failure :=
  .parsing s.path (Language.ofPath s.path).name (Fault.reason (s.tree parser).root)

/-- Some relative import or export of a file leads to the directory that paths start from. -/
def NamesRoot : Prop :=
  ∃ source ∈ (s.tree parser).root.children.filterMap source?,
    isRelative source = true ∧ Path.namesRoot s.path source = true

instance : Decidable (s.NamesRoot parser) :=
  inferInstanceAs (Decidable (∃ _ ∈ _, _))

/-- How a file is refused in numbers that may outgrow the doubles. -/
inductive IsRefused (settings : Settings Number) : Failure → Prop
  | malformed (broken : s.isMalformed parser = true) : IsRefused settings (s.refusal parser)
  | unresolved {cause : Misuse} (whole : s.isMalformed parser = false)
      (alone : settings.notAlone = some cause) (root : s.NamesRoot parser) :
      IsRefused settings (.misuse cause)
  | tooLarge (whole : s.isMalformed parser = false)
      (resolved : settings.notAlone = none ∨ ¬ s.NamesRoot parser)
      (large : (moduleFileResult settings (s.tree parser)).score.hasValue = false) :
      IsRefused settings .tooLarge

end Source

theorem texts_sources (root : Node) :
    (sources root).map Prod.fst = root.children.filterMap source? := by
  rw [sources, List.map_filterMap]
  refine List.filterMap_congr fun statement _ => ?_
  rw [Option.map_map]
  exact Option.map_id'

section

variable {parser : Parser} {s : Source} {files : List Source}

theorem parseSource_eq : parseSource parser s
    = if s.isMalformed parser then .error (s.refusal parser) else .ok (s.tree parser) := rfl

section

variable {α : Type} [Scalar α] {settings : Settings α}

theorem readModule_eq_error_iff {failure : Failure} :
    (parseSource parser s).map (moduleOf settings s) = .error failure
      ↔ s.isMalformed parser = true ∧ failure = s.refusal parser := by
  rw [parseSource_eq]
  cases s.isMalformed parser <;> simp [Except.map, eq_comm]

theorem exists_readModule_iff :
    (∃ m, (parseSource parser s).map (moduleOf settings s) = .ok m)
      ↔ s.isMalformed parser = false := by
  rw [parseSource_eq]
  cases s.isMalformed parser <;> simp [Except.map]

theorem readModules_eq_error_iff {failure : Failure} :
    readModules parser settings files = .error failure ↔ ∃ before s after,
      files = before ++ s :: after ∧ (∀ q ∈ before, q.isMalformed parser = false)
        ∧ s.isMalformed parser = true ∧ failure = s.refusal parser := by
  simp only [readModules, mapM_eq_error_iff, exists_readModule_iff, readModule_eq_error_iff]

theorem readModules_eq_ok (whole : ∀ s ∈ files, s.isMalformed parser = false) :
    readModules parser settings files
      = .ok (files.map fun s => moduleOf settings s (s.tree parser)) := by
  rw [readModules, mapM_eq_ok_iff, List.forall₂_map_right_iff, List.forall₂_same]
  intro s hs
  rw [parseSource_eq, whole s hs]
  rfl

theorem survey_of_whole [SquareRoot α] {contents : Entries String} {paths : List String}
    (listed : selected contents paths = files)
    (whole : ∀ s ∈ files, s.isMalformed parser = false) :
    survey parser settings contents paths
      = .ok (rows settings (closed (files.map fun s => moduleOf settings s (s.tree parser)))) := by
  rw [survey, listed, readModules_eq_ok whole]
  rfl

end

/-! ### Surveys in numbers that may outgrow the doubles -/

variable {settings : Settings Number} {failure : Failure}

theorem checkValues_eq (numbers : List Number) : Failure.checkValues numbers
    = if ∀ x ∈ numbers, x.hasValue = true then .ok () else .error .tooLarge := by
  simp only [Failure.checkValues, List.all_eq_true]

theorem checkImports_tree (s : Source) : checkImports settings (s.tree parser)
    = match settings.notAlone with
      | none => .ok ()
      | some cause => if s.NamesRoot parser then .error (.misuse cause) else .ok () := by
  rw [checkImports]
  cases settings.notAlone with
  | none => rfl
  | some cause =>
    simp only [texts_sources, List.any_eq_true, Bool.and_eq_true]
    exact ite_congr rfl (fun _ => rfl) fun _ => rfl

def checkSource (parser : Parser) (settings : Settings Number) (s : Source) :
    Except Failure Unit := do
  let _ ← boundedFileResult settings (← parseSource parser s)

theorem checkImports_tree_eq_error_iff :
    checkImports settings (s.tree parser) = .error failure
      ↔ ∃ cause, settings.notAlone = some cause ∧ s.NamesRoot parser ∧ failure = .misuse cause := by
  rw [checkImports_tree]
  cases settings.notAlone with
  | none => simp
  | some cause => by_cases root : s.NamesRoot parser <;> simp [root, eq_comm]

theorem checkImports_tree_eq_ok_iff :
    checkImports settings (s.tree parser) = .ok ()
      ↔ settings.notAlone = none ∨ ¬ s.NamesRoot parser := by
  rw [checkImports_tree]
  cases settings.notAlone with
  | none => simp
  | some cause => by_cases root : s.NamesRoot parser <;> simp [root]

theorem boundedFileResult_eq_error_iff {t : Tree} :
    boundedFileResult settings t = .error failure ↔ checkImports settings t = .error failure
      ∨ checkImports settings t = .ok () ∧ (moduleFileResult settings t).score.hasValue = false
        ∧ failure = .tooLarge := by
  simp only [boundedFileResult, checkValues_eq]
  cases checkImports settings t with
  | error other => simp [bind, Except.bind]
  | ok _ =>
    cases large : (moduleFileResult settings t).score.hasValue with
    | true => simp [large, bind, Except.bind, pure, Except.pure]
    | false => simp [large, bind, Except.bind, @eq_comm _ failure]

theorem checkSource_eq_error_iff :
    checkSource parser settings s = .error failure ↔ s.IsRefused parser settings failure := by
  rw [checkSource, parseSource_eq]
  cases broken : s.isMalformed parser with
  | true =>
    constructor
    · intro h
      obtain rfl : s.refusal parser = failure := Except.error.inj h
      exact .malformed broken
    · rintro (_ | ⟨whole, _, _⟩ | ⟨whole, _, _⟩)
      · rfl
      · cases broken.symm.trans whole
      · cases broken.symm.trans whole
  | false =>
    have read : (do let _ ← boundedFileResult settings (s.tree parser) : Except Failure Unit)
        = .error failure ↔ boundedFileResult settings (s.tree parser) = .error failure := by
      cases boundedFileResult settings (s.tree parser) <;>
        simp [bind, Except.bind, pure, Except.pure]
    refine read.trans (boundedFileResult_eq_error_iff.trans ?_)
    rw [checkImports_tree_eq_error_iff, checkImports_tree_eq_ok_iff]
    constructor
    · rintro (⟨cause, alone, root, rfl⟩ | ⟨resolved, large, rfl⟩)
      · exact .unresolved broken alone root
      · exact .tooLarge broken resolved large
    · rintro (⟨whole⟩ | ⟨_, alone, root⟩ | ⟨_, resolved, large⟩)
      · cases broken.symm.trans whole
      · exact .inl ⟨_, alone, root, rfl⟩
      · exact .inr ⟨resolved, large, rfl⟩

theorem Source.not_isRefused (whole : s.isMalformed parser = false)
    (resolved : settings.notAlone = none)
    (value : (moduleFileResult settings (s.tree parser)).score.hasValue = true) :
    ¬ s.IsRefused parser settings failure := by
  rintro (⟨broken⟩ | ⟨_, alone, _⟩ | ⟨_, _, large⟩)
  · cases broken.symm.trans whole
  · cases resolved.symm.trans alone
  · cases value.symm.trans large

theorem Source.isMalformed_of_not_isRefused
    (passed : ∀ failure, ¬ s.IsRefused parser settings failure) : s.isMalformed parser = false :=
  Bool.eq_false_iff.2 fun broken => passed _ (.malformed broken)

theorem checkSource_eq_ok_iff :
    checkSource parser settings s = .ok ()
      ↔ ∀ failure, ¬ s.IsRefused parser settings failure := by
  simp only [← checkSource_eq_error_iff]
  cases checkSource parser settings s <;> simp

theorem checkReading_eq_error_iff :
    checkReading parser settings files = .error failure ↔ ∃ before s after,
      files = before ++ s :: after
        ∧ (∀ q ∈ before, ∀ failure, ¬ q.IsRefused parser settings failure)
        ∧ s.IsRefused parser settings failure := by
  rw [checkReading, List.forM_eq_forM]
  change forM files (checkSource parser settings) = _ ↔ _
  simp only [forM_eq_error_iff, checkSource_eq_ok_iff, checkSource_eq_error_iff]

theorem checkReading_eq_ok_iff :
    checkReading parser settings files = .ok ()
      ↔ ∀ s ∈ files, ∀ failure, ¬ s.IsRefused parser settings failure := by
  rw [checkReading, List.forM_eq_forM]
  change forM files (checkSource parser settings) = _ ↔ _
  simp only [forM_eq_ok_iff, checkSource_eq_ok_iff]

variable {contents : Entries String} {paths : List String}

/-- The first file that is refused decides how a survey is. -/
theorem boundedSurvey_of_isRefused {before after : List Source}
    (split : selected contents paths = before ++ s :: after)
    (passed : ∀ q ∈ before, ∀ failure, ¬ q.IsRefused parser settings failure)
    (refused : s.IsRefused parser settings failure) :
    boundedSurvey parser settings contents paths = .error failure := by
  have reading := checkReading_eq_error_iff.2 ⟨before, s, after, split, passed, refused⟩
  rw [boundedSurvey, reading]
  rfl

theorem boundedSurvey_of_passed {rows : List (Row Number)}
    (passed : ∀ s ∈ selected contents paths, ∀ failure, ¬ s.IsRefused parser settings failure)
    (surveyed : survey parser settings contents paths = .ok rows) :
    boundedSurvey parser settings contents paths
      = if ∀ r ∈ rows, r.total.hasValue = true then .ok rows else .error .tooLarge := by
  rw [boundedSurvey, checkReading_eq_ok_iff.2 passed, surveyed]
  simp only [checkValues_eq, List.forall_mem_map, bind, Except.bind]
  split_ifs <;> rfl

/-- Where some file is refused, so is the survey, for one of its files. -/
theorem exists_boundedSurvey_of_not_passed
    (refused : ¬ ∀ s ∈ selected contents paths, ∀ failure,
      ¬ s.IsRefused parser settings failure) :
    ∃ failure, boundedSurvey parser settings contents paths = .error failure
      ∧ ∃ s ∈ selected contents paths, s.IsRefused parser settings failure := by
  cases reading : checkReading parser settings (selected contents paths) with
  | ok _ => exact absurd (checkReading_eq_ok_iff.1 reading) refused
  | error failure =>
    obtain ⟨before, s, after, split, passed, first⟩ := checkReading_eq_error_iff.1 reading
    exact ⟨failure, boundedSurvey_of_isRefused split passed first, s,
      split ▸ List.mem_append_right _ List.mem_cons_self, first⟩

end

end ComplexityMeter.Graph
