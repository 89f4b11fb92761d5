import Mathlib.Data.List.Induction
import ComplexityMeter.Log
import ComplexityMeter.Proofs.Entries
import ComplexityMeter.Proofs.Path.Resolution

/-!
# Histories of a log

The latest set-up alone says which outlets a log has and what they let pass. A file holds the
records that were logged while the latest set-up named it, in their order, however often it was left
and taken up again.
-/

namespace ComplexityMeter.Log

/-! ### What a history asks for -/

def Step.request? : Step → Option Request
  | .setUp r => some r
  | .log _ => none

def latest? (steps : List Step) : Option Request :=
  (steps.filterMap Step.request?).getLast?

/-- Some set-up among the steps names a file. -/
def IsNamed (name : String) (steps : List Step) : Prop :=
  ∃ step ∈ steps, step.request?.bind Request.file? = some name

instance (name : String) (steps : List Step) : Decidable (IsNamed name steps) :=
  inferInstanceAs (Decidable (∃ step ∈ steps, _))

/-- What a step enters into a file, given the steps before it: a record that reaches the debug level
and is logged while the latest set-up names the file. -/
def enters? (name : String) (past : List Step) : Step → Option Record
  | .setUp _ => none
  | .log r =>
    if (latest? past).bind Request.file? = some name ∧ debug ≤ r.level then some r else none

/-- The records that some steps enter into a file, in their order. -/
def entered (name : String) (steps : List Step) : List Record :=
  steps.zipIdx.filterMap fun e => enters? name (steps.take e.2) e.1

section

variable {name : String} {steps : List Step}

theorem latest?_append_setUp (r : Request) : latest? (steps ++ [.setUp r]) = some r := by
  simp [latest?, Step.request?]

theorem latest?_append_log (r : Record) : latest? (steps ++ [.log r]) = latest? steps := by
  simp [latest?, Step.request?]

theorem isNamed_append (step : Step) : IsNamed name (steps ++ [step])
    ↔ IsNamed name steps ∨ step.request?.bind Request.file? = some name := by
  simp [IsNamed, or_and_right, exists_or]

theorem isNamed_of_latest? (open? : (latest? steps).bind Request.file? = some name) :
    IsNamed name steps := by
  obtain ⟨r, latest, named⟩ := Option.bind_eq_some_iff.1 open?
  obtain ⟨step, taken, request⟩ := List.mem_filterMap.1 (List.mem_of_getLast? latest)
  exact ⟨step, taken, by rwa [request]⟩

theorem entered_eq_nil (unnamed : ¬ IsNamed name steps) : entered name steps = [] := by
  refine List.filterMap_eq_nil_iff.2 fun e _ => ?_
  rw [enters?.eq_def]
  split
  · rfl
  · refine if_neg fun takes => unnamed ?_
    obtain ⟨step, taken, names⟩ := isNamed_of_latest? takes.1
    exact ⟨step, List.mem_of_mem_take taken, names⟩

theorem entered_append (step : Step) :
    entered name (steps ++ [step]) = entered name steps ++ (enters? name steps step).toList := by
  have before : steps.zipIdx.filterMap (fun e => enters? name ((steps ++ [step]).take e.2) e.1)
      = entered name steps := by
    refine List.filterMap_congr fun e he => ?_
    have earlier : e.2 < steps.length := by simpa using List.snd_lt_of_mem_zipIdx he
    rw [List.take_append_of_le_length (Nat.le_of_lt earlier)]
  rw [entered, List.zipIdx_append, List.filterMap_append, before]
  simp [List.filterMap_eq_flatMap_toList]

end

/-! ### Outlets -/

namespace State

def run (s : State) (steps : List Step) : State :=
  steps.foldl after s

theorem run_append (s : State) (steps : List Step) (step : Step) :
    s.run (steps ++ [step]) = (s.run steps).after step := by
  rw [run, List.foldl_append]
  rfl

/-- A log is as a set-up has left it: there is a console, and a file if one is named, and a log with
a file takes up all that reaches the debug level. -/
structure IsSetUpAs (s : State) (r : Request) : Prop where
  outlets_eq : s.outlets
    = .console r.level :: (r.file?.map fun name => Outlet.file name debug).toList
  level_eq : s.level = if r.file?.isSome then debug else r.level
  propagates_eq : s.propagates = false

theorem isSetUpAs_setUp (s : State) (r : Request) : (s.setUp r).IsSetUpAs r :=
  ⟨rfl, rfl, rfl⟩

theorem isSetUpAs_run {s : State} {steps : List Step} {r : Request}
    (latest : latest? steps = some r) : (s.run steps).IsSetUpAs r := by
  induction steps using List.reverseRecOn with
  | nil => cases latest
  | append_singleton steps step ih =>
    rw [run_append]
    cases step with
    | setUp r' =>
      rw [latest?_append_setUp] at latest
      exact Option.some.inj latest ▸ isSetUpAs_setUp _ r'
    | log record =>
      rw [latest?_append_log] at latest
      obtain ⟨outlets, level, propagates⟩ := ih latest
      exact ⟨outlets, level, propagates⟩

theorem debug_le_level (r : Request) : debug ≤ r.level := by
  rw [Request.level]
  split_ifs <;> decide

theorem IsSetUpAs.shows_eq {s : State} {r : Request} (h : s.IsSetUpAs r) (record : Record) :
    s.shows record = decide (r.level ≤ record.level) := by
  have least := debug_le_level r
  have console : s.reaches record (.console r.level) = decide (r.level ≤ record.level) := by
    rw [reaches, h.level_eq, Outlet.level]
    split_ifs
    · by_cases reached : r.level ≤ record.level
      · simp [reached, Int.le_trans least reached]
      · simp [reached]
    · simp
  rw [shows, if_neg (by simp [h.outlets_eq]), h.outlets_eq, List.any_cons]
  dsimp only
  rw [console]
  cases r.file? <;> simp

theorem file?_of_mem_outletsOf {r : Request} {name : String} {level : Level}
    (listed : .file name level ∈ outletsOf r) : r.file? = some name := by
  rw [outletsOf, List.mem_cons, Option.mem_toList] at listed
  obtain ⟨file, found, same⟩ := Option.map_eq_some_iff.1 (listed.resolve_left nofun)
  exact (Outlet.file.inj same).1 ▸ found

/-! ### Files -/

theorem get?_touch (name other : String) (files : Entries (List String)) :
    (touch name files).get? other
      = if other = name then some ((files.get? other).getD []) else files.get? other := by
  rw [touch, Entries.get?_set]
  split_ifs with same
  · rw [same]
  · rfl

theorem get?_setUp (s : State) (r : Request) (name : String) :
    (s.setUp r).files.get? name
      = if r.file? = some name then some ((s.files.get? name).getD []) else s.files.get? name := by
  rw [setUp]
  cases r.file? with
  | none => rfl
  | some file =>
    change (touch file s.files).get? name = _
    rw [get?_touch]
    simp [eq_comm]

/-- An outlet that is not the file leaves the file alone. -/
theorem get?_deliver_of_ne {o : Outlet} {name : String} (other : ∀ level, o ≠ .file name level)
    (r : Record) (files : Entries (List String)) :
    (deliver r files o).get? name = files.get? name := by
  cases o with
  | console level => rfl
  | file file level =>
    have ne : name ≠ file := fun same => other level (same ▸ rfl)
    rw [deliver, Entries.get?_set, if_neg ne]

theorem get?_log_of_closed {s : State} {name : String}
    (closed : ∀ level, Outlet.file name level ∉ s.outlets) (r : Record) :
    (s.log r).files.get? name = s.files.get? name := by
  have others : ∀ o ∈ s.outlets.filter (s.reaches r), ∀ level, o ≠ .file name level :=
    fun o ho level same => closed level (same ▸ List.mem_of_mem_filter ho)
  rw [log]
  generalize s.outlets.filter (s.reaches r) = outlets at others
  generalize s.files = files
  dsimp only
  induction outlets generalizing files with
  | nil => rfl
  | cons o rest ih =>
    obtain ⟨first, others⟩ := List.forall_mem_cons.1 others
    rw [List.foldl_cons, ih others, get?_deliver_of_ne first]

theorem IsSetUpAs.get?_log {s : State} {r : Request} (h : s.IsSetUpAs r) (name : String)
    (record : Record) : (s.log record).files.get? name
      = if r.file? = some name ∧ debug ≤ record.level then
          some ((s.files.get? name).getD [] ++ [record.line])
        else s.files.get? name := by
  by_cases named : r.file? = some name
  · have outlets : s.outlets = [.console r.level, .file name debug] := by
      rw [h.outlets_eq, named]
      rfl
    have level : s.level = debug := by
      rw [h.level_eq, named]
      rfl
    have written : s.reaches record (.file name debug) = decide (debug ≤ record.level) := by
      rw [reaches, level, Outlet.level, Bool.and_self]
    rw [log, outlets, List.filter_cons, List.filter_singleton, written]
    by_cases passes : debug ≤ record.level <;>
      cases s.reaches record (.console r.level) <;>
      simp [named, passes, deliver, Entries.get?_set]
  · rw [if_neg fun both => named both.1]
    refine get?_log_of_closed (fun level listed => named ?_) record
    exact file?_of_mem_outletsOf (h.outlets_eq ▸ listed)

/-- Before the first set-up a log has the outlets that it started with. -/
theorem outlets_run {s : State} {steps : List Step} (none : latest? steps = none) :
    (s.run steps).outlets = s.outlets := by
  induction steps using List.reverseRecOn with
  | nil => rfl
  | append_singleton steps step ih =>
    rw [run_append]
    cases step with
    | setUp r =>
      rw [latest?_append_setUp] at none
      cases none
    | log record =>
      rw [latest?_append_log] at none
      exact ih none

/-- A file that no outlet writes to at the start goes on with the records that are entered into it,
as soon as a set-up has named it. -/
theorem get?_run {start : State} {name : String}
    (closed : ∀ level, Outlet.file name level ∉ start.outlets) (steps : List Step) :
    (start.run steps).files.get? name
      = if IsNamed name steps then
          some ((start.files.get? name).getD [] ++ (entered name steps).map Record.line)
        else start.files.get? name := by
  induction steps using List.reverseRecOn with
  | nil => simp [IsNamed, run]
  | append_singleton steps step ih =>
    rw [run_append, entered_append]
    cases step with
    | setUp r =>
      simp only [after, get?_setUp, ih, isNamed_append]
      by_cases known : IsNamed name steps
      · simp [known, enters?, Step.request?]
      · simp [known, enters?, Step.request?, entered_eq_nil known]
    | log record =>
      simp only [after, isNamed_append]
      cases latest : latest? steps with
      | none =>
        rw [get?_log_of_closed (by rwa [outlets_run latest]), ih]
        simp [enters?, latest, Step.request?]
      | some r =>
        rw [(isSetUpAs_run latest).get?_log, ih]
        by_cases takes : r.file? = some name ∧ debug ≤ record.level
        · have known : IsNamed name steps := isNamed_of_latest? (by rw [latest]; exact takes.1)
          simp [known, enters?, latest, takes, Step.request?]
        · simp [enters?, latest, takes, Step.request?]

/-! ### Histories -/

theorem getElem?_history (s : State) (steps : List Step) (i : Nat) :
    (s.history steps)[i]? = steps[i]?.map fun step =>
      (s.run (steps.take (i + 1)), (s.run (steps.take i)).showsStep step) := by
  induction steps generalizing s i with
  | nil => rfl
  | cons step rest ih =>
    cases i with
    | zero => rfl
    | succ i => exact ih (s.after step) i

theorem length_history (s : State) (steps : List Step) :
    (s.history steps).length = steps.length := by
  induction steps generalizing s with
  | nil => rfl
  | cons step rest ih => exact congrArg (· + 1) (ih (s.after step))

theorem checkedHistory_eq_ok_iff {s : State} {steps : List Step} {states : List (State × Bool)} :
    s.checkedHistory steps = .ok states ↔ states = s.history steps
      ∧ ∀ i step, steps[i]? = some step → (s.run (steps.take i)).fault? step = none := by
  induction steps generalizing s states with
  | nil => simp [checkedHistory, history, eq_comm]
  | cons step rest ih =>
    rw [checkedHistory, history]
    cases fault : s.fault? step with
    | some found =>
      refine iff_of_false nofun fun both => ?_
      have free := both.2 0 step rfl
      rw [List.take_zero] at free
      exact absurd (fault.symm.trans free) nofun
    | none =>
      have later : (∀ i next, (step :: rest)[i]? = some next →
            (s.run ((step :: rest).take i)).fault? next = none)
          ↔ ∀ i next, rest[i]? = some next →
            ((s.after step).run (rest.take i)).fault? next = none := by
        refine ⟨fun all i => all (i + 1), fun all i next => ?_⟩
        cases i with
        | zero => rintro ⟨⟩; exact fault
        | succ i => exact all i next
      rw [later]
      cases checked : (s.after step).checkedHistory rest with
      | error found =>
        refine iff_of_false nofun fun both => ?_
        exact absurd (checked.symm.trans (ih.2 ⟨rfl, both.2⟩)) nofun
      | ok others =>
        obtain ⟨rfl, free⟩ := ih.1 checked
        exact ⟨fun same => ⟨(Except.ok.inj same).symm, free⟩, fun both => both.1 ▸ rfl⟩

/-! ### Plain names -/

/-- A plain name of a file in the directory of the log, short enough for a file system. -/
structure IsPlain (name : String) : Prop where
  isName : Path.IsName name.toList
  short : name.utf8ByteSize ≤ Directory.nameLimit

namespace IsPlain

variable {name : String} (plain : IsPlain name)
include plain

theorem isAbsolute_eq : Path.isAbsolute name.toList = false :=
  decide_eq_false fun head => plain.isName.whole (List.mem_of_mem_head? head)

theorem normalize_eq : Path.normalize name = name := by
  have named := plain.isName
  rw [Path.normalize, Path.normalForm, Path.segments_of_notMem named.whole, plain.isAbsolute_eq]
  simp [Path.enter, Path.staysPut, named.ne_nil, named.ne_here, named.ne_up, Path.join]

theorem namesOf_eq : Directory.namesOf name.toList = [name.toList] := by
  have named := plain.isName
  rw [Directory.namesOf, plain.isAbsolute_eq, Path.names, Path.segments_of_notMem named.whole]
  simp [Path.staysPut, named.ne_nil, named.ne_here]

theorem place_eq : Directory.place name = [name.toList] := by
  have normal : (Path.normalize name).toList = Path.normalForm name.toList :=
    String.toList_ofList
  rw [Directory.place, ← normal, plain.normalize_eq, plain.namesOf_eq]

end IsPlain

/-- Among files of plain names a plain name leads to a file or to nothing. -/
theorem at?_directory {s : State} {name : String} (plain : IsPlain name)
    (files : ∀ entry ∈ s.files, IsPlain entry.1) :
    s.directory.at? [name.toList] = none ∨ s.directory.at? [name.toList] = some (.file []) := by
  have named := plain.isName
  have loose : Directory.isFixed [name.toList] = false := by
    have root : name.toList ≠ Directory.root := fun same => named.whole (same ▸ List.mem_cons_self)
    simp [Directory.isFixed, named.ne_up, root]
  rw [Directory.at?, loose, if_neg Bool.false_ne_true]
  cases found : s.directory.find? fun entry => entry.1 = [name.toList] with
  | some entry =>
    obtain ⟨file, -, rfl⟩ := List.mem_map.1 (List.mem_of_find?_eq_some found)
    exact .inr rfl
  | none =>
    have below : (s.directory.any fun entry => [name.toList].isPrefixOf entry.1) = false := by
      rw [List.any_eq_false]
      intro entry he
      obtain ⟨file, hf, rfl⟩ := List.mem_map.1 he
      have other := List.find?_eq_none.1 found _ he
      rw [(files file hf).place_eq] at other ⊢
      intro start
      have same := (List.isPrefixOf_iff_prefix.1 start).eq_of_length rfl
      exact other (decide_eq_true same.symm)
    exact .inl (by rw [below]; rfl)

theorem obstacle?_eq_none {s : State} {name : String} (plain : IsPlain name)
    (files : ∀ entry ∈ s.files, IsPlain entry.1) : s.obstacle? name = none := by
  have here : s.directory.find (String.ofList (Path.directory name.toList)) = .directory := by
    rw [Path.directory_of_notMem plain.isName.whole]
    rfl
  have fits : ¬ Directory.pathLimit < name.utf8ByteSize := by
    have := plain.short
    simp only [Directory.nameLimit, Directory.pathLimit] at this ⊢
    omega
  have short : Directory.isLongName name.toList = false := by
    simp [Directory.isLongName, plain.short]
  rw [obstacle?, here, Directory.find, if_neg fits, plain.namesOf_eq, Directory.follow]
  have start : s.directory.at? [] = some .directory := rfl
  rw [start]
  dsimp only
  rw [short, if_neg Bool.false_ne_true, if_neg plain.isName.ne_up, List.nil_append,
    Directory.follow]
  rcases at?_directory plain files with absent | file
  · rw [absent]
  · rw [file]

/-- All files of a log, those that it has written and those that it writes to, have plain names. -/
structure IsPlainlyNamed (s : State) : Prop where
  files : ∀ entry ∈ s.files, IsPlain entry.1
  outlets : ∀ name level, .file name level ∈ s.outlets → IsPlain name

theorem isPlain_deliver {o : Outlet} {files : Entries (List String)} (record : Record)
    (known : ∀ entry ∈ files, IsPlain entry.1)
    (plain : ∀ name level, o = .file name level → IsPlain name) :
    ∀ entry ∈ deliver record files o, IsPlain entry.1 := by
  cases o with
  | console level => exact known
  | file name level =>
    intro entry he
    obtain rfl | other := Entries.mem_of_mem_set he
    · exact plain name level rfl
    · exact known entry other

theorem IsPlainlyNamed.after {s : State} (h : s.IsPlainlyNamed) {step : Step}
    (plain : ∀ name, step.request?.bind Request.file? = some name → IsPlain name) :
    (s.after step).IsPlainlyNamed := by
  cases step with
  | setUp r =>
    refine ⟨fun entry he => ?_, fun name level listed => plain name ?_⟩
    · cases named : r.file? with
      | none =>
        rw [State.after, setUp, named] at he
        exact h.files entry he
      | some file =>
        rw [State.after, setUp, named] at he
        obtain rfl | known := Entries.mem_of_mem_set he
        · exact plain file named
        · exact h.files entry known
    · exact file?_of_mem_outletsOf listed
  | log record =>
    refine ⟨?_, h.outlets⟩
    have outlets : ∀ o ∈ s.outlets.filter (s.reaches record), ∀ name level, o = .file name level →
        IsPlain name :=
      fun o ho name level same => h.outlets name level (same ▸ List.mem_of_mem_filter ho)
    have delivered := List.foldlRecOn
      (motive := fun files : Entries (List String) => ∀ entry ∈ files, IsPlain entry.1)
      (s.outlets.filter (s.reaches record)) (deliver record) h.files
    exact delivered fun files plain o ho => isPlain_deliver record plain (outlets o ho)

theorem checkedHistory_of_isPlain {s : State} (h : s.IsPlainlyNamed) {steps : List Step}
    (plain : ∀ name, IsNamed name steps → IsPlain name) :
    s.checkedHistory steps = .ok (s.history steps) := by
  induction steps generalizing s with
  | nil => rfl
  | cons step rest ih =>
    have first : ∀ name, step.request?.bind Request.file? = some name → IsPlain name :=
      fun name named => plain name ⟨step, List.mem_cons_self, named⟩
    have later : ∀ name, IsNamed name rest → IsPlain name := by
      rintro name ⟨next, taken, named⟩
      exact plain name ⟨next, List.mem_cons_of_mem _ taken, named⟩
    have free : s.fault? step = none := by
      cases step with
      | log record => rfl
      | setUp r =>
        rw [fault?]
        cases named : r.file? with
        | none => rfl
        | some name => exact obstacle?_eq_none (first name named) h.files
    rw [checkedHistory, free, ih (h.after first) later]
    rfl

end State

open State (IsPlain)

/-- After every step behind a set-up the outlets and levels are those of the latest one, and the
console shows what reaches its level. A file that no outlet wrote to at the start holds what it held
then, and behind that exactly the records that were logged at debug level or above while the latest
set-up named it, under whatever spelling; it is there as soon as one has named it. A history can be
taken as far as the files can be opened, and plain names can always be. -/
theorem history_follows_latest (start : State) (steps : List Step) :
    (∀ i s shown, (start.history steps)[i]? = some (s, shown) →
      (∀ r, latest? (steps.take (i + 1)) = some r → s.IsSetUpAs r)
      ∧ (∀ r record, latest? (steps.take i) = some r → steps[i]? = some (.log record) →
        shown = decide (r.level ≤ record.level))
      ∧ ∀ name, (∀ level, Outlet.file (Path.normalize name) level ∉ start.outlets) →
        s.lines? name
          = if IsNamed (Path.normalize name) (steps.take (i + 1)) then
              some ((start.lines? name).getD []
                ++ (entered (Path.normalize name) (steps.take (i + 1))).map Record.line)
            else start.lines? name)
    ∧ (start.history steps).length = steps.length
    ∧ (∀ states, start.checkedHistory steps = .ok states ↔ states = start.history steps
      ∧ ∀ i step, steps[i]? = some step → (start.run (steps.take i)).fault? step = none)
    ∧ (start.IsPlainlyNamed → (∀ name, IsNamed name steps → IsPlain name) →
      start.checkedHistory steps = .ok (start.history steps)) := by
  refine ⟨fun i s shown reached => ?_, start.length_history steps,
    fun states => State.checkedHistory_eq_ok_iff,
    fun named plain => State.checkedHistory_of_isPlain named plain⟩
  rw [State.getElem?_history] at reached
  obtain ⟨step, taken, same⟩ := Option.map_eq_some_iff.1 reached
  obtain ⟨rfl, rfl⟩ := Prod.mk.inj same
  refine ⟨fun r latest => State.isSetUpAs_run latest, fun r record latest logged => ?_,
    fun name closed => State.get?_run closed _⟩
  obtain rfl := Option.some.inj (taken.symm.trans logged)
  exact (State.isSetUpAs_run latest).shows_eq record

/-- A file is named, left for another one and named again under another spelling, with records
before, between and behind. -/
def reopened : List Step :=
  let named (file : Option String) : Step := .setUp ⟨false, true, file⟩
  [.log ⟨error, "", "early"⟩, named (some "a.log"), .log ⟨debug, "api", "one"⟩,
    .log ⟨5, "api", "traced"⟩, named (some "b.log"), .log ⟨warning, "", "two"⟩,
    named (some "./a.log"), .log ⟨critical, "", "three"⟩, named none, .log ⟨error, "cli", "late"⟩]

theorem history_follows_latest_reopened :
    ∃ s, (State.initial.history reopened)[9]? = some (s, true)
      ∧ s.IsSetUpAs ⟨false, true, none⟩
      ∧ s.lines? "a.log" = some ["complexity_insight.api - DEBUG - one",
        "complexity_insight - CRITICAL - three"]
      ∧ s.lines? "b.log" = some ["complexity_insight - WARNING - two"]
      ∧ s.lines? "c.log" = none
      ∧ State.initial.checkedHistory reopened = .ok (State.initial.history reopened) := by
  obtain ⟨states, -, -, plain⟩ := history_follows_latest State.initial reopened
  refine ⟨State.initial.run reopened, rfl, ?_⟩
  obtain ⟨latest, -, files⟩ := states 9 (State.initial.run reopened) true rfl
  refine ⟨latest _ rfl, (files "a.log" nofun).trans ?_, (files "b.log" nofun).trans ?_,
    (files "c.log" nofun).trans ?_, plain ⟨nofun, nofun⟩ ?_⟩
  · decide +kernel
  · decide +kernel
  · decide +kernel
  · have listed : ∀ step ∈ reopened, ∀ name ∈ step.request?.bind Request.file?,
        name = "a.log" ∨ name = "b.log" := by decide +kernel
    rintro name ⟨step, taken, named⟩
    obtain rfl | rfl := listed step taken name named
    · exact ⟨⟨by decide, by decide, by decide, by decide⟩, by decide⟩
    · exact ⟨⟨by decide, by decide, by decide, by decide⟩, by decide⟩

end ComplexityMeter.Log
