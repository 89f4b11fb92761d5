import ComplexityMeter.Event
import ComplexityMeter.Graph.Order
import ComplexityMeter.Settings

/-!
# Totals of modules

The total of a module is its own score and a share of the totals of the modules it imports, damped
and divided by the square root of their number. Every total is computed once and remembered. On a
list that is not in order the computation also meets modules above their imports; it then follows
the imports as deep as the ceiling allows, and never into a module that waits for the one at hand.
-/

namespace ComplexityMeter.Graph

open Score (Ceiling Result)

variable {α : Type}

def notWaiting (modules : List (Module α)) (waiting : List String) : List String :=
  (modules.map Module.path).filter fun path => !waiting.contains path

theorem length_notWaiting_lt {modules : List (Module α)} {waiting : List String} {path : String}
    (hmem : path ∈ modules.map Module.path) (hnot : path ∉ waiting) :
    (notWaiting modules (path :: waiting)).length < (notWaiting modules waiting).length := by
  refine length_filter_lt (x := path) ?_ hmem ?_ ?_
  · intro y hy
    simp only [List.contains_cons, Bool.not_or, Bool.and_eq_true] at hy
    exact hy.2
  · simpa using hnot
  · simp

variable [Scalar α] [SquareRoot α]

/-- Totals that have been computed, the last one first, and the events in order. -/
structure Totals (α : Type) where
  known : List (String × α)
  events : List (Event α)

namespace Totals

def get? (t : Totals α) (path : String) : Option α :=
  t.known.lookup path

def note (t : Totals α) (e : Event α) : Totals α :=
  { t with events := t.events ++ [e] }

def record (t : Totals α) (path : String) (total : α) : Totals α :=
  { known := (path, total) :: t.known, events := t.events ++ [.aggregated path total] }

end Totals

/-- What a module scores before its total is known: the score of its file. -/
def fileScore (m : Module α) : α :=
  (m.result.map Result.score).getD 0.0

/-- What a module scores without its imports: the score of its file and of the direct parts. -/
def ownScore (r : Result α) : α :=
  r.score + Scalar.sum (r.parts.map Result.score)

/-- Whether a depth is below a ceiling. -/
def exceeds (ceiling : Ceiling) (depth : Nat) : Bool :=
  match ceiling with
  | .level bound => bound < (depth : Int)
  | .unlimited => false

def withImports (damping own imported : α) (count : Nat) : α :=
  if count = 0 then own
  else own + damping * imported / SquareRoot.squareRoot (count : α)

/-- Adds the share of an import. Paths that are not listed and modules that wait have none. -/
def addShare (modules : List (Module α)) (waiting : List String)
    (share : Module α → Totals α → α × Totals α) (sofar : α × Totals α) (d : String) :
    α × Totals α :=
  match find? modules d with
  | none => sofar
  | some imported =>
    if d ∈ waiting then sofar
    else
      let (part, after) := share imported sofar.2
      (sofar.1 + part, after)

def importedTotal (modules : List (Module α)) (waiting : List String)
    (share : Module α → Totals α → α × Totals α) (imports : List String) (totals : Totals α) :
    α × Totals α :=
  imports.foldl (addShare modules waiting share) (0.0, totals)

/-- The total of a module. The modules in `waiting` are those whose totals wait for this one; their
number is the depth at which it is met. -/
def total (modules : List (Module α)) (settings : Settings α) (waiting : List String)
    (m : Module α) (totals : Totals α) : α × Totals α :=
  if exceeds settings.moduleCeiling waiting.length then
    ((totals.get? m.path).getD (((find? modules m.path).map fileScore).getD 0.0),
      totals.note (.moduleCutOff m.path))
  else
    match m.result with
    | none => (0.0, totals)
    | some result =>
      match totals.get? m.path with
      | some known => (known, totals)
      | none =>
        if h : m.path ∈ waiting ∨ m.path ∉ modules.map Module.path then
          (((find? modules m.path).map fileScore).getD 0.0, totals)
        else
          let (imported, after) := importedTotal modules (m.path :: waiting)
            (total modules settings (m.path :: waiting)) m.dependencies totals
          let own := withImports settings.damping (ownScore result) imported m.dependencies.length
          (own, after.record m.path own)
termination_by (notWaiting modules waiting).length
decreasing_by
  have hno := not_or.1 h
  exact length_notWaiting_lt (Decidable.not_not.1 hno.2) hno.1

section Exits

variable {modules : List (Module α)} {settings : Settings α} {waiting : List String} {m : Module α}
  {totals : Totals α}

/-- Beyond the depth ceiling only what is known, or else the score of the file, is read. -/
theorem total_of_exceeds (deep : exceeds settings.moduleCeiling waiting.length = true) :
    total modules settings waiting m totals
      = ((totals.get? m.path).getD (((find? modules m.path).map fileScore).getD 0.0),
        totals.note (.moduleCutOff m.path)) := by
  rw [total, if_pos deep]

theorem total_of_unscored (shallow : exceeds settings.moduleCeiling waiting.length = false)
    (unscored : m.result = none) : total modules settings waiting m totals = (0.0, totals) := by
  rw [total, if_neg (by simp [shallow]), unscored]

theorem total_of_known (shallow : exceeds settings.moduleCeiling waiting.length = false)
    {result : Result α} (scored : m.result = some result) {value : α}
    (known : totals.get? m.path = some value) :
    total modules settings waiting m totals = (value, totals) := by
  rw [total, if_neg (by simp [shallow]), scored]
  simp only [known]

/-- A module that waits for the one at hand has the score of its file. -/
theorem total_of_waiting (shallow : exceeds settings.moduleCeiling waiting.length = false)
    {result : Result α} (scored : m.result = some result) (unknown : totals.get? m.path = none)
    (waits : m.path ∈ waiting) :
    total modules settings waiting m totals
      = (((find? modules m.path).map fileScore).getD 0.0, totals) := by
  rw [total, if_neg (by simp [shallow]), scored]
  simp only [unknown, dif_pos (Or.inl waits)]

/-- All other modules get their total from their imports, and it is remembered. -/
theorem total_of_unknown (shallow : exceeds settings.moduleCeiling waiting.length = false)
    {result : Result α} (scored : m.result = some result) (unknown : totals.get? m.path = none)
    (free : m.path ∉ waiting) (listed : m.path ∈ modules.map Module.path) :
    total modules settings waiting m totals =
      let imported := importedTotal modules (m.path :: waiting)
        (total modules settings (m.path :: waiting)) m.dependencies totals
      let own := withImports settings.damping (ownScore result) imported.1 m.dependencies.length
      (own, imported.2.record m.path own) := by
  rw [total, if_neg (by simp [shallow]), scored]
  simp only [unknown, dif_neg (not_or.2 ⟨free, not_not_intro listed⟩)]

end Exits

def computeTotal (modules : List (Module α)) (settings : Settings α) (totals : Totals α)
    (m : Module α) : Totals α :=
  match totals.get? m.path with
  | some _ => totals
  | none => (total modules settings [] m totals).2

/-- Computes the totals of a list, from its end, each module unless its total is known. -/
def computeTotals (modules : List (Module α)) (settings : Settings α) : Totals α :=
  modules.reverse.foldl (computeTotal modules settings) ⟨[], []⟩

/-- The total of every path of a list; a module without a result has the total zero. -/
def totalOf (totals : Totals α) (path : String) : α :=
  (totals.get? path).getD 0.0

def totalsByPath (modules : List (Module α)) (settings : Settings α) : List (String × α) :=
  let totals := computeTotals modules settings
  (modules.map Module.path).eraseDups.map fun path => (path, totalOf totals path)

end ComplexityMeter.Graph
