import Mathlib.Data.List.TakeWhile
import ComplexityMeter.Command.Run
import ComplexityMeter.Proofs.Runs

/-!
# What commands print

A command over many files first prints a report for each file that fails, and then what it made of
the others. The reports go to the error output, so they change nothing on the output, unless the
console refuses one of them: then the command breaks off. Nothing is said of a console but how it
reads marks, and that only where it is asked for.
-/

namespace ComplexityMeter.Command

/-! ### Consoles that read marks -/

/-- A mark begins with an opening bracket and one of these characters. -/
def beginsMark (c : Char) : Bool :=
  c.isLower || c = '#' || c = '/' || c = '@'

/-- No mark begins in a text. -/
def IsPlain (cs : List Char) : Prop :=
  cs.IsChain fun c d => c = '[' → beginsMark d = false

instance (cs : List Char) : Decidable (IsPlain cs) :=
  inferInstanceAs (Decidable (List.IsChain _ _))

/-- A text behind a label in a style. -/
def labelled (style label text : String) : String :=
  "[" ++ style ++ "]" ++ label ++ "[/" ++ style ++ "]" ++ text

/-- A style that is a word in lower case, and a label in which no mark begins or is escaped. -/
structure IsLabel (style label : String) : Prop where
  named : style ≠ ""
  lower : ∀ c ∈ style.toList, c.isLower = true
  plain : IsPlain label.toList
  unescaped : '\\' ∉ label.toList

/-- What is documented of marks: those around a label are read and shown as a style, and one that
ends a style which is not set is refused. -/
structure Console.ReadsMarks (console : Console) : Prop where
  shows : ∀ {style label text : String}, IsLabel style label → IsPlain text.toList →
    ∃ shown, console.marked (labelled style label text) = .ok shown
  refuses : ∀ {style label text name : String}, IsLabel style label → IsPlain text.toList →
    '\\' ∉ text.toList → '[' ∉ name.toList → ']' ∉ name.toList → ∀ rest,
      console.marked (labelled style label (text ++ "[/" ++ name ++ "]" ++ rest))
        = .error ⟨"MarkupError"⟩

namespace Console.ReadsMarks

variable {console : Console} {path : String} {failure : Failure}

end Console.ReadsMarks

/-! ### Printing reports -/

namespace Outcome

variable {console : Console} {status : Nat} {reports texts : List String} {rest : List Print}
  {o : Outcome}

/-- Texts, each on a line of its own. -/
def lines : List String → String
  | [] => ""
  | text :: rest => text ++ "\n" ++ lines rest

theorem ofPrints_reports (shown : reports.mapM console.marked = .ok texts) :
    ofPrints console status (reports.map .problem ++ rest) o
      = ofPrints console status rest { o with errors := o.errors ++ lines texts } := by
  induction reports generalizing texts o with
  | nil =>
    obtain rfl : [] = texts := Except.ok.inj shown
    rw [lines, String.append_empty]
    rfl
  | cons report reports ih =>
    rw [List.mapM_cons] at shown
    obtain ⟨text, first, later⟩ := bind_eq_ok_iff.1 shown
    obtain ⟨texts, others, same⟩ := bind_eq_ok_iff.1 later
    obtain rfl := Except.ok.inj same
    have printed : o.print console (.problem report) = .ok (o.addProblem text) := by
      rw [print, first]
      rfl
    rw [List.map_cons, List.cons_append, ofPrints, printed]
    refine (ih others).trans ?_
    simp only [addProblem, lines, String.append_assoc]

/-- The first report that the console refuses ends everything. -/
theorem ofPrints_refused (status : Nat) (rest : List Print) (o : Outcome) {refusal : Refusal}
    (refused : reports.mapM console.marked = .error refusal) : ∃ errors,
    ofPrints console status (reports.map .problem ++ rest) o
      = ⟨1, o.output, errors, some (.refusal refusal)⟩ := by
  obtain ⟨before, report, after, rfl, passed, ending⟩ := mapM_eq_error_iff.1 refused
  obtain ⟨texts, shown⟩ := exists_mapM_eq_ok_iff.2 passed
  rw [List.map_append, List.append_assoc, ofPrints_reports shown, List.map_cons, List.cons_append,
    ofPrints, print, ending]
  exact ⟨_, rfl⟩

end Outcome

/-! ### Going on without the files that failed -/

/-- The failure to deal with a file. -/
def failureOf? {β : Type} : Except Failure β → Option Failure
  | .ok _ => none
  | .error failure => some failure

namespace Attempt

variable {β γ : Type} {deal : String → Except Failure β} {paths : List String}

theorem reports_all : reports (all deal paths)
    = paths.filterMap fun path => (failureOf? (deal path)).map (failureReport path) := by
  rw [reports, all, List.filterMap_map]
  refine List.filterMap_congr fun path _ => ?_
  cases outcome : deal path with
  | ok made => simp [report?, outcome, failureOf?]
  | error failure => simp [report?, outcome, failureOf?]

theorem reports_filter :
    reports (all deal (paths.filter fun path => (deal path).isOk)) = [] := by
  rw [reports_all, List.filterMap_filter]
  refine List.filterMap_eq_nil_iff.2 fun path _ => ?_
  cases deal path <;> simp [failureOf?, Except.isOk, Except.toBool]

theorem status_all :
    status (all deal paths) = if paths.all fun path => (deal path).isOk then 0 else 1 := by
  have failed (path : String) : isFailure ⟨path, deal path⟩ = !(deal path).isOk := by
    rw [isFailure]
    cases deal path <;> rfl
  have some : (all deal paths).any isFailure = !paths.all fun path => (deal path).isOk := by
    rw [all, List.any_map, List.not_all_eq_any_not]
    exact congrArg paths.any (funext failed)
  rw [status, some]
  cases paths.all fun path => (deal path).isOk <;> rfl

/-- The outcomes of a command, for every list of files: it reports those with which it cannot deal,
and goes on to a document without them. A failure to go on ends it, behind some of the reports. -/
structure GoesOn (console : Console) (deal : String → Except Failure β)
    (next : List String → Except Failure Datum) (outcome : List String → Outcome) : Prop where
  skips : ∀ paths, next (paths.filter fun path => (deal path).isOk) = next paths
  ok : ∀ paths d, next paths = .ok d →
    outcome paths = outcomeOf console (all deal paths) [.document d]
  error : ∀ paths failure, next paths = .error failure → ∃ before ⊆ reports (all deal paths),
    outcome paths
      = Outcome.ofPrints console 1 (before.map .problem ++ [.failure failure]) Outcome.empty

namespace GoesOn

variable {console : Console} {next : List String → Except Failure Datum}
  {outcome : List String → Outcome} {texts : List String} {d : Datum} {failure : Failure}

theorem alone (goes : GoesOn console deal next outcome) (paths : List String) :
    outcome (paths.filter fun path => (deal path).isOk)
      = match next paths with
        | .ok d => ⟨0, Json.writeIndented d ++ "\n", "", none⟩
        | .error failure => ⟨1, "", "", some (.failure failure)⟩ := by
  cases going : next paths with
  | ok d =>
    rw [goes.ok _ d (by rwa [goes.skips]), outcomeOf, reports_filter, status_all,
      if_pos (by simp)]
    simp [Outcome.ofPrints, Outcome.print, Outcome.addLine, Outcome.empty]
  | error failure =>
    obtain ⟨before, reported, ended⟩ := goes.error (paths.filter fun path => (deal path).isOk)
      failure (by rwa [goes.skips])
    rw [reports_filter] at reported
    rw [ended, List.eq_nil_of_subset_nil reported]
    rfl

theorem shown (goes : GoesOn console deal next outcome)
    (readable : (reports (all deal paths)).mapM console.marked = .ok texts)
    (going : next paths = .ok d) :
    outcome paths = ⟨if paths.all fun path => (deal path).isOk then 0 else 1,
      Json.writeIndented d ++ "\n", Outcome.lines texts, none⟩ := by
  rw [goes.ok paths d going, outcomeOf, Outcome.ofPrints_reports readable, status_all]
  simp [Outcome.ofPrints, Outcome.print, Outcome.addLine, Outcome.empty]

theorem ended (goes : GoesOn console deal next outcome)
    (readable : (reports (all deal paths)).mapM console.marked = .ok texts)
    (going : next paths = .error failure) :
    ∃ errors, outcome paths = ⟨1, "", errors, some (.failure failure)⟩ := by
  obtain ⟨before, reported, ended⟩ := goes.error paths failure going
  obtain ⟨texts, printed⟩ := exists_mapM_eq_ok_iff.2 fun report listed =>
    exists_mapM_eq_ok_iff.1 ⟨texts, readable⟩ report (reported listed)
  rw [ended, Outcome.ofPrints_reports printed]
  exact ⟨_, rfl⟩

/-- A report that the console refuses ends the command, unless it has ended before with a failure to
go on. -/
theorem hidden (goes : GoesOn console deal next outcome) {refusal : Refusal}
    (refused : (reports (all deal paths)).mapM console.marked = .error refusal) :
    ∃ errors escape, outcome paths = ⟨1, "", errors, some escape⟩
      ∧ ∀ failure, escape = .failure failure → next paths = .error failure := by
  cases going : next paths with
  | ok d =>
    obtain ⟨errors, broken⟩ := Outcome.ofPrints_refused (status (all deal paths)) [.document d]
      Outcome.empty refused
    exact ⟨errors, .refusal refusal, (goes.ok paths d going).trans broken, by simp⟩
  | error failure =>
    obtain ⟨before, -, ended⟩ := goes.error paths failure going
    cases printed : before.mapM console.marked with
    | ok texts =>
      refine ⟨Outcome.empty.errors ++ Outcome.lines texts, .failure failure, ?_, ?_⟩
      · rw [ended, Outcome.ofPrints_reports printed]
        rfl
      · rintro _ ⟨rfl⟩
        rfl
    | error other =>
      obtain ⟨errors, broken⟩ := Outcome.ofPrints_refused 1 [.failure failure] Outcome.empty printed
      exact ⟨errors, .refusal other, ended.trans broken, by simp⟩

end GoesOn

end Attempt

end ComplexityMeter.Command
