import Mathlib.Algebra.Group.Int.Defs
import ComplexityMeter.Proofs.Graph.Independence

/-!
# What a survey covers

A survey has one row for every listed file that takes part, whatever the list: paths in different
spellings, paths without content and files that import each other. A row holds what was read from
the content of its own file, and all imports of other files of the survey but those that were pruned
to break a cycle. Nothing but a syntax error in a file that takes part refuses a survey in exact
numbers, and the first such file decides what the refusal says.
-/

namespace ComplexityMeter.Graph

open Syntax (Fault Language Node Parser Tree)

/-! ### Which listed files take part -/

/-- Some path of a list has content, and a given normal path. -/
def Occurs (contents : Entries String) (normal : String) (paths : List String) : Prop :=
  ∃ q ∈ paths, (content? contents q).isSome = true ∧ Path.normalize q = normal

instance (contents : Entries String) (normal : String) (paths : List String) :
    Decidable (Occurs contents normal paths) :=
  inferInstanceAs (Decidable (∃ _ ∈ _, _))

/-- The file that takes part for the path in one place of a list: the path has content, and no path
before it has content and the same normal path. -/
def takenAt? (contents : Entries String) (paths : List String) (i : Nat) : Option Source :=
  paths[i]?.bind fun path => (content? contents path).bind fun text =>
    if Occurs contents (Path.normalize path) (paths.take i) then none
    else some ⟨Path.normalize path, text⟩

theorem occurs_cons {contents : Entries String} {normal path : String} {rest : List String} :
    Occurs contents normal (path :: rest)
      ↔ ((content? contents path).isSome = true ∧ Path.normalize path = normal)
        ∨ Occurs contents normal rest := by
  simp [Occurs]

section

variable {contents : Entries String} {path : String} {rest : List String}

theorem takenAt?_zero : takenAt? contents (path :: rest) 0
    = (content? contents path).map (Source.mk (Path.normalize path)) := by
  cases h : content? contents path <;> simp [takenAt?, Occurs, h]

/-- A path that is put in front keeps files under its own normal path out, if it has content. -/
theorem takenAt?_succ (i : Nat) : takenAt? contents (path :: rest) (i + 1)
    = (takenAt? contents rest i).filter fun s =>
        !decide ((content? contents path).isSome = true ∧ Path.normalize path = s.path) := by
  rw [takenAt?, takenAt?, List.getElem?_cons_succ, List.take_succ_cons]
  cases rest[i]? with
  | none => rfl
  | some later =>
    rw [Option.bind_some, Option.bind_some]
    cases content? contents later with
    | none => rfl
    | some text =>
      rw [Option.bind_some, Option.bind_some]
      by_cases before : Occurs contents (Path.normalize later) (rest.take i)
      · rw [if_pos (occurs_cons.2 (.inr before)), if_pos before]
        rfl
      · rw [if_neg before]
        by_cases first : (content? contents path).isSome = true
            ∧ Path.normalize path = Path.normalize later
        · rw [if_pos (occurs_cons.2 (.inl first))]
          simp [Option.filter, first]
        · rw [if_neg fun occurs => (occurs_cons.1 occurs).elim first before]
          simp [Option.filter, first]

theorem filterMap_takenAt?_cons (p : Source → Bool) :
    (List.range (path :: rest).length).filterMap
        (fun i => (takenAt? contents (path :: rest) i).filter p)
      = (((content? contents path).map (Source.mk (Path.normalize path))).filter p).toList
        ++ (List.range rest.length).filterMap fun i => (takenAt? contents rest i).filter fun s =>
          !decide ((content? contents path).isSome = true ∧ Path.normalize path = s.path)
            && p s := by
  rw [List.length_cons, List.range_succ_eq_map, List.filterMap_cons, takenAt?_zero,
    List.filterMap_map]
  simp only [Function.comp_def, takenAt?_succ, Option.filter_filter]
  cases ((content? contents path).map (Source.mk (Path.normalize path))).filter p <;> rfl

end

/-- The files that the steps through a list take are those that take part and are not met under a
path that was taken before. -/
theorem filterMap_stepsAfter_eq (contents : Entries String) (seen paths : List String) :
    (stepsAfter contents seen paths).filterMap Step.source?
      = (List.range paths.length).filterMap fun i =>
          (takenAt? contents paths i).filter fun s => s.path ∉ seen := by
  fun_induction stepsAfter contents seen paths with
  | case1 => rfl
  | case2 seen path rest none ih =>
    rw [filterMap_takenAt?_cons, none]
    exact ih.trans (by simp)
  | case3 seen path rest text found normal known ih =>
    have kept (s : Source) : (!decide ((content? contents path).isSome = true
        ∧ Path.normalize path = s.path) && decide (s.path ∉ seen)) = decide (s.path ∉ seen) := by
      by_cases same : Path.normalize path = s.path
      · have met : s.path ∈ seen := same ▸ known
        simp [met]
      · simp [same]
    have out : ((content? contents path).map (Source.mk (Path.normalize path))).filter
        (fun s => s.path ∉ seen) = none := by
      rw [found]
      simpa [normal] using known
    rw [filterMap_takenAt?_cons, out, ih]
    simp only [kept]
    rfl
  | case4 seen path rest text found normal new ih =>
    have kept (s : Source) : (!decide ((content? contents path).isSome = true
        ∧ Path.normalize path = s.path) && decide (s.path ∉ seen))
          = decide (s.path ∉ normal :: seen) := by
      by_cases same : Path.normalize path = s.path
      · simp [same, normal, found]
      · simp [same, normal, Ne.symm same]
    have taken : ((content? contents path).map (Source.mk (Path.normalize path))).filter
        (fun s => s.path ∉ seen) = some ⟨normal, text⟩ := by
      rw [found]
      simpa [normal] using new
    rw [filterMap_takenAt?_cons, taken]
    simp only [kept]
    exact congrArg (_ :: ·) ih

theorem selected_eq_takenAt? (contents : Entries String) (paths : List String) :
    selected contents paths = (List.range paths.length).filterMap (takenAt? contents paths) := by
  have every (o : Option Source) : o.filter (fun s => s.path ∉ []) = o := by
    cases o <;> simp
  rw [selected_eq, filterMap_stepsAfter_eq]
  simp only [every]

/-! ### The imports of a file -/

/-- The files that the relative sources of the top-level imports and exports of a file name. -/
def namedFiles (defaultFile path : String) (root : Node) : List String :=
  ((root.children.filterMap source?).filter isRelative).map fun source =>
    Path.resolve path source defaultFile

theorem dependencies_eq (defaultFile path : String) (root : Node) :
    dependencies defaultFile path root = (namedFiles defaultFile path root).eraseDups := by
  rw [dependencies, texts_sources, namedFiles]

theorem nodup_eraseDups (paths : List String) : paths.eraseDups.Nodup :=
  match paths with
  | [] => List.nodup_nil
  | p :: rest => by
    rw [List.eraseDups_cons, List.nodup_cons]
    exact ⟨by simp, nodup_eraseDups _⟩
termination_by paths.length
decreasing_by exact Nat.lt_succ_of_le (List.length_filter_le _ _)

/-! ### Rows -/

variable {α : Type} [Scalar α] [SquareRoot α]

def modulesOf (parser : Parser) (settings : Settings α) (files : List Source) : List (Module α) :=
  closed (files.map fun s => moduleOf settings s (s.tree parser))

/-- The row of a file of a survey from whose imports some have been pruned. -/
structure IsRowOf (parser : Parser) (settings : Settings α) (files : List Source)
    (pruned : List (String × String)) (s : Source) (r : Row α) : Prop where
  details : r.details = some (moduleFileResult settings (s.tree parser))
  fileScore : r.fileScore = (moduleFileResult settings (s.tree parser)).score
  /-- The imports, in source order and each once, of files of the survey, but those pruned. -/
  dependencies : r.dependencies
    = (namedFiles settings.defaultFile s.path (s.tree parser).root).eraseDups.filter fun d =>
        d ∈ files.map Source.path ∧ (s.path, d) ∉ pruned
  nodup : r.dependencies.Nodup

/-- The rows of a survey: one for each file, and no other. -/
structure Covers (parser : Parser) (settings : Settings α) (files : List Source)
    (rows : List (Row α)) : Prop where
  paths : (rows.map Row.path).Perm (files.map Source.path)
  nodup : (rows.map Row.path).Nodup
  row : ∀ s ∈ files, ∀ r ∈ rows, r.path = s.path →
    IsRowOf parser settings files (prunedImports (modulesOf parser settings files)) s r

section

variable {parser : Parser} {settings : Settings α} {files : List Source}

/-- The module of a file of a survey, with its imports of other files of the survey. -/
def memberOf (parser : Parser) (settings : Settings α) (files : List Source) (s : Source) :
    Module α :=
  ⟨s.path,
    (dependencies settings.defaultFile s.path (s.tree parser).root).filter
      (files.map Source.path).contains,
    some (moduleFileResult settings (s.tree parser))⟩

omit [SquareRoot α] in
theorem modulesOf_eq :
    modulesOf parser settings files = files.map (memberOf parser settings files) := by
  have paths : (files.map fun s => moduleOf settings s (s.tree parser)).map Module.path
      = files.map Source.path := by
    rw [List.map_map]
    rfl
  simp only [modulesOf, closed, paths, List.map_map]
  rfl

omit [SquareRoot α] in
theorem paths_modulesOf :
    (modulesOf parser settings files).map Module.path = files.map Source.path := by
  rw [modulesOf_eq, List.map_map]
  rfl

theorem covers_rows (distinct : (files.map Source.path).Nodup) :
    Covers parser settings files (rows settings (modulesOf parser settings files)) := by
  have modules : ((modulesOf parser settings files).map Module.path).Nodup := by
    rwa [paths_modulesOf]
  refine ⟨?_, ?_, fun s hs r hr same => ?_⟩
  · have same := (List.perm_ext_iff_of_nodup nodup_paths_ordered modules).2 fun _ =>
      mem_paths_ordered
    rwa [paths_modulesOf, ← paths_rows settings] at same
  · rw [paths_rows]
    exact nodup_paths_ordered
  · obtain ⟨o, ho, rfl⟩ := List.mem_map.1 hr
    have member : memberOf parser settings files s ∈ modulesOf parser settings files := by
      rw [modulesOf_eq]
      exact List.mem_map_of_mem hs
    have result : o.result = some (moduleFileResult settings (s.tree parser)) := by
      have path : o.path = (memberOf parser settings files s).path := same
      rw [(mem_ordered.1 ho).2, path, find?_of_mem modules member]
      rfl
    have imports := kept_ordered modules member ho same
    have kept : o.dependencies
        = (namedFiles settings.defaultFile s.path (s.tree parser).root).eraseDups.filter fun d =>
          d ∈ files.map Source.path
            ∧ (s.path, d) ∉ prunedImports (modulesOf parser settings files) := by
      rw [imports, memberOf, dependencies_eq, List.filter_filter]
      exact List.filter_congr fun d _ => by simp [Bool.and_comm]
    refine ⟨result, ?_, kept, ?_⟩
    · change fileScore o = _
      rw [fileScore, result]
      rfl
    · change o.dependencies.Nodup
      rw [kept]
      exact (nodup_eraseDups _).filter _

end

/-- Of a list of paths, those files take part whose path has content and no path with the same
normal form and content before it. A survey is refused when some of them has a syntax error, and the
refusal is that of the first one in the order of the list. Otherwise it has one row for each of
them, under its normal path and read from its own content; the imports of a row are, in source order
and each once, those that name a file of the survey, without the ones that were pruned. In numbers
that may outgrow the doubles the first file that is refused decides the refusal, and where none is
refused the rows are the same, unless a total has no value. -/
theorem survey_covers (parser : Parser) (contents : Entries String) (paths : List String) :
    let files := (List.range paths.length).filterMap (takenAt? contents paths)
    (∀ {α : Type} [Scalar α] [SquareRoot α] (settings : Settings α),
      (∀ failure, survey parser settings contents paths = .error failure ↔
        ∃ before s after, files = before ++ s :: after
          ∧ (∀ q ∈ before, q.isMalformed parser = false) ∧ s.isMalformed parser = true
          ∧ failure = s.refusal parser)
      ∧ ((∀ s ∈ files, s.isMalformed parser = false) →
          ∃ rows, survey parser settings contents paths = .ok rows
            ∧ Covers parser settings files rows))
    ∧ ∀ settings : Settings Number,
        (∀ before s after failure, files = before ++ s :: after →
          (∀ q ∈ before, ∀ failure, ¬ q.IsRefused parser settings failure) →
          s.IsRefused parser settings failure →
            boundedSurvey parser settings contents paths = .error failure)
        ∧ ((∀ s ∈ files, ∀ failure, ¬ s.IsRefused parser settings failure) →
            ∃ rows, survey parser settings contents paths = .ok rows
              ∧ Covers parser settings files rows
              ∧ boundedSurvey parser settings contents paths
                = if ∀ r ∈ rows, r.total.hasValue = true then .ok rows else .error .tooLarge) := by
  intro files
  have listed : selected contents paths = files := selected_eq_takenAt? contents paths
  have covered {α : Type} [Scalar α] [SquareRoot α] (settings : Settings α)
      (whole : ∀ s ∈ files, s.isMalformed parser = false) :
      ∃ rows, survey parser settings contents paths = .ok rows
        ∧ Covers parser settings files rows := by
    have distinct := nodup_paths_selected contents paths
    rw [listed] at distinct
    exact ⟨_, survey_of_whole listed whole, covers_rows distinct⟩
  refine ⟨fun settings => ⟨fun failure => ?_, covered settings⟩, fun settings => ⟨?_, ?_⟩⟩
  · have refused : survey parser settings contents paths = .error failure
        ↔ readModules parser settings files = .error failure := by
      rw [survey, listed]
      cases readModules parser settings files <;> simp [Except.map]
    rw [refused, readModules_eq_error_iff]
  · intro before s after failure split passed refused
    exact boundedSurvey_of_isRefused (listed.trans split) passed refused
  · intro passed
    obtain ⟨rows, surveyed, covers⟩ := covered settings fun s hs =>
      Source.isMalformed_of_not_isRefused (passed s hs)
    exact ⟨rows, surveyed, covers, boundedSurvey_of_passed (listed ▸ passed) surveyed⟩

/-- Reads four texts: two import each other in a ring, and one has a syntax error. -/
def ringParser : Parser := fun _ code =>
  ⟨"program", true, false, code = "broken", none, code, 0, 0, 0,
    if code = "top" then [importFrom "'./left'" 1, importFrom "'./right.ts'" 3,
      importFrom "'./x/../left'" 5]
    else if code = "left" then [importFrom "'./right'" 1, importFrom "'./top'" 3,
      importFrom "'./missing'" 5]
    else []⟩

def ringContents : Entries String :=
  [("top.ts", "top"), ("gone.ts", ""), ("./left.ts", "left"), ("left.ts", "broken"),
    ("right.ts", "right")]

/-- A file without content, and one listed under two spellings, of which the second is broken. -/
def ringPaths : List String :=
  ["top.ts", "gone.ts", "./left.ts", "left.ts", "right.ts"]

def ringFiles : List Source :=
  [⟨"top.ts", "top"⟩, ⟨"left.ts", "left"⟩, ⟨"right.ts", "right"⟩]

section

variable (settings : Settings Number)

def ringModule (path content : String) (imports : List String) : Module Number :=
  ⟨path, imports, some (moduleFileResult settings (Source.tree ringParser ⟨path, content⟩))⟩

theorem modulesOf_ring (defaultFile : settings.defaultFile = "mod.ts") :
    modulesOf ringParser settings ringFiles
      = [ringModule settings "top.ts" "top" ["left.ts", "right.ts"],
        ringModule settings "left.ts" "left" ["right.ts", "top.ts"],
        ringModule settings "right.ts" "right" []] := by
  let imports (s : Source) : List String :=
    (dependencies "mod.ts" s.path (s.tree ringParser).root).filter
      (ringFiles.map Source.path).contains
  have top : imports ⟨"top.ts", "top"⟩ = ["left.ts", "right.ts"] := by decide +kernel
  have left : imports ⟨"left.ts", "left"⟩ = ["right.ts", "top.ts"] := by decide +kernel
  have right : imports ⟨"right.ts", "right"⟩ = [] := by decide +kernel
  have each : memberOf ringParser settings ringFiles = fun s =>
      ⟨s.path, imports s, some (moduleFileResult settings (s.tree ringParser))⟩ := by
    funext s
    rw [memberOf, defaultFile]
  rw [modulesOf_eq, each]
  simp only [ringFiles, List.map_cons, List.map_nil, top, left, right, ringModule]

/-- The search prunes the import that closes the ring. It looks at paths and imports alone. -/
theorem search_ring (r r' r'' : Option (Score.Result Number)) :
    let modules : List (Module Number) := [⟨"top.ts", ["left.ts", "right.ts"], r⟩,
      ⟨"left.ts", ["right.ts", "top.ts"], r'⟩, ⟨"right.ts", [], r''⟩]
    prunedImports modules = [("left.ts", "top.ts")]
    ∧ ordered modules = [⟨"top.ts", ["left.ts", "right.ts"], r⟩, ⟨"left.ts", ["right.ts"], r'⟩,
        ⟨"right.ts", [], r''⟩] := by
  constructor <;> cbv

theorem rows_ring (defaultFile : settings.defaultFile = "mod.ts")
    (ceiling : exceeds settings.moduleCeiling 0 = false) :
    let order := [ringModule settings "top.ts" "top" ["left.ts", "right.ts"],
      ringModule settings "left.ts" "left" ["right.ts"], ringModule settings "right.ts" "right" []]
    rows settings (modulesOf ringParser settings ringFiles) = order.map fun m =>
      ⟨m.path, fileScore m, readTotal (settledTotals settings.damping
        ["top.ts", "left.ts", "right.ts"] order) m.path, m.dependencies, m.result⟩ := by
  intro order
  have found : ordered [ringModule settings "top.ts" "top" ["left.ts", "right.ts"],
      ringModule settings "left.ts" "left" ["right.ts", "top.ts"],
      ringModule settings "right.ts" "right" []] = order := (search_ring _ _ _).2
  rw [rows_eq ceiling, modulesOf_ring settings defaultFile]
  simp only [found]
  rfl

end

/-- The left file keeps its import of the right one; its import of the top one closes the ring. With
the broken spelling in front the survey is refused, and so it is when totals outgrow the doubles. -/
theorem survey_covers_ring :
    (List.range ringPaths.length).filterMap (takenAt? ringContents ringPaths) = ringFiles
    ∧ (∀ s ∈ ringFiles, s.isMalformed ringParser = false)
    ∧ (∃ rows, survey ringParser (Settings.default (α := Number)) ringContents ringPaths = .ok rows
      ∧ Covers ringParser Settings.default ringFiles rows
      ∧ rows.map (fun r => (r.path, r.dependencies))
        = [("top.ts", ["left.ts", "right.ts"]), ("left.ts", ["right.ts"]), ("right.ts", [])]
      ∧ boundedSurvey ringParser Settings.default ringContents ringPaths = .ok rows)
    ∧ survey ringParser (Settings.default (α := Number)) ringContents ("left.ts" :: ringPaths)
      = .error (.parsing "left.ts" "typescript" "syntax error")
    ∧ boundedSurvey ringParser Settings.default ringContents ("left.ts" :: ringPaths)
      = .error (.parsing "left.ts" "typescript" "syntax error")
    ∧ boundedSurvey ringParser { Settings.default with damping := .int (10 ^ 400) } ringContents
        ringPaths = .error .tooLarge := by
  have listed : (List.range ringPaths.length).filterMap (takenAt? ringContents ringPaths)
      = ringFiles := by
    decide +kernel
  have whole : ∀ s ∈ ringFiles, s.isMalformed ringParser = false := by decide +kernel
  obtain ⟨readings, bounded⟩ := survey_covers ringParser ringContents ringPaths
  rw [listed] at readings bounded
  have surveyed (settings : Settings Number) : survey ringParser settings ringContents ringPaths
      = .ok (rows settings (modulesOf ringParser settings ringFiles)) :=
    survey_of_whole ((selected_eq_takenAt? _ _).trans listed) whole
  have plain := rows_ring Settings.default rfl (by decide)
  have damped := rows_ring { Settings.default with damping := .int (10 ^ 400) } rfl (by decide)
  have files : (List.range ("left.ts" :: ringPaths).length).filterMap
      (takenAt? ringContents ("left.ts" :: ringPaths))
        = [] ++ ⟨"left.ts", "broken"⟩ :: [⟨"top.ts", "top"⟩, ⟨"right.ts", "right"⟩] := by
    decide +kernel
  have broken : (Source.mk "left.ts" "broken").isMalformed ringParser = true := by decide +kernel
  have refusal : (Source.mk "left.ts" "broken").refusal ringParser
      = .parsing "left.ts" "typescript" "syntax error" := by
    have language : Language.ofPath "left.ts" = .typescript := by decide +kernel
    simp [Source.refusal, Source.tree, language, ringParser, Fault.reason, Fault.find?,
      Fault.firstPending, Fault.ofNode?]
    rfl
  obtain ⟨refused, stopped⟩ := survey_covers ringParser ringContents ("left.ts" :: ringPaths)
  refine ⟨listed, whole, ?_, ?_, ?_, ?_⟩
  · obtain ⟨rows, survey, covers⟩ := (readings (Settings.default (α := Number))).2 whole
    obtain rfl := Except.ok.inj ((surveyed _).symm.trans survey)
    have values : ∀ s ∈ ringFiles, (moduleFileResult (Settings.default (α := Number))
        (s.tree ringParser)).score.hasValue = true := by
      decide +kernel
    obtain ⟨rows', survey', -, ended⟩ := (bounded Settings.default).2 fun s hs _ =>
      Source.not_isRefused (whole s hs) rfl (values s hs)
    obtain rfl := Except.ok.inj (survey.symm.trans survey')
    refine ⟨_, survey, covers, ?_, ended.trans (if_pos ?_)⟩
    · rw [plain]
      rfl
    · rw [plain]
      decide +kernel
  · exact ((refused (Settings.default (α := Number))).1 _).2
      ⟨[], _, _, files, by simp, broken, refusal.symm⟩
  · exact (stopped Settings.default).1 [] _ _ _ files (by simp) (refusal ▸ .malformed broken)
  · have values : ∀ s ∈ ringFiles, (moduleFileResult
        { Settings.default (α := Number) with damping := .int (10 ^ 400) }
        (s.tree ringParser)).score.hasValue = true := by
      decide +kernel
    obtain ⟨rows, survey, -, ended⟩ := (bounded _).2 fun s hs _ =>
      Source.not_isRefused (whole s hs) rfl (values s hs)
    obtain rfl := Except.ok.inj ((surveyed _).symm.trans survey)
    refine ended.trans (if_neg ?_)
    rw [damped]
    decide +kernel

end ComplexityMeter.Graph
