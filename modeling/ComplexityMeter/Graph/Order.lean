import ComplexityMeter.Score.Result

/-!
# Order of modules

Modules are ordered so that each stands before the modules it imports, by a depth-first search. An
edge to a module whose own imports are still being followed closes a cycle and is pruned; all
other imports are kept. The search is a machine whose state holds the modules that are finished
and the modules that are being followed, so a module is fresh when it is neither.
-/

namespace ComplexityMeter.Graph

open Score (Result)

/-- A file of a module graph, with the paths that it imports and its result if it has one. -/
structure Module (α : Type) where
  path : String
  dependencies : List String
  result : Option (Result α)

variable {α : Type}

/-- The record of a path. Where a path occurs twice the later record counts. -/
def find? (modules : List (Module α)) (path : String) : Option (Module α) :=
  modules.reverse.find? fun m => m.path = path

/-- A module that is being followed: the imports kept so far and those still to be looked at. -/
structure Frame where
  path : String
  kept : List String
  rest : List String
  deriving DecidableEq, Repr

/-- What a search has found: the finished modules with their kept imports, the last one first, and
the pruned imports in the order in which they were met. -/
structure Found where
  finished : List (String × List String)
  pruned : List (String × String)
  deriving DecidableEq, Repr

def followed (frames : List Frame) : List String :=
  frames.map Frame.path

/-- Whether a listed path is neither finished nor being followed. -/
def isFresh (found : Found) (frames : List Frame) (path : String) : Bool :=
  !(followed frames).contains path && !(found.finished.map Prod.fst).contains path

def freshPaths (modules : List (Module α)) (found : Found) (frames : List Frame) : List String :=
  (modules.map Module.path).filter (isFresh found frames)

theorem find?_path {modules : List (Module α)} {path : String} {m : Module α}
    (h : find? modules path = some m) : m ∈ modules ∧ m.path = path := by
  refine ⟨?_, ?_⟩
  · simpa using List.mem_of_find?_eq_some h
  · simpa using List.find?_some h

theorem length_filter_lt {β : Type} {p q : β → Bool} {xs : List β} {x : β}
    (hpq : ∀ y, p y = true → q y = true) (hx : x ∈ xs) (hq : q x = true) (hp : p x = false) :
    (xs.filter p).length < (xs.filter q).length := by
  induction xs with
  | nil => simp at hx
  | cons y rest ih =>
    have hle : (rest.filter p).length ≤ (rest.filter q).length := by
      clear ih hx
      induction rest with
      | nil => simp
      | cons z zs ihz =>
        by_cases hz : p z = true
        · simpa [hz, hpq z hz] using ihz
        · by_cases hqz : q z = true
          · simp only [List.filter_cons, hz, hqz, if_true, List.length_cons]
            simp only [Bool.false_eq_true, if_false]
            omega
          · simpa [hz, hqz] using ihz
    rcases List.mem_cons.1 hx with rfl | hmem
    · simp only [List.filter_cons, hp, hq, if_true, List.length_cons]
      simp only [Bool.false_eq_true, if_false]
      omega
    · by_cases hy : p y = true
      · simpa [hy, hpq y hy] using ih hmem
      · by_cases hqy : q y = true
        · simp only [List.filter_cons, hy, hqy, if_true, List.length_cons]
          simp only [Bool.false_eq_true, if_false]
          omega
        · simpa [hy, hqy] using ih hmem

def freshModule? (modules : List (Module α)) (found : Found) (frames : List Frame)
    (path : String) : Option (Module α) :=
  if isFresh found frames path then find? modules path else none

theorem length_freshPaths_lt {modules : List (Module α)} {found : Found} {frames : List Frame}
    {path : String} {m : Module α} (h : freshModule? modules found frames path = some m)
    (frame : Frame) (hframe : frame.path = path) :
    (freshPaths modules found (frame :: frames)).length
      < (freshPaths modules found frames).length := by
  unfold freshModule? at h
  split at h
  · rename_i hfresh
    obtain ⟨hmem, hpath⟩ := find?_path h
    refine length_filter_lt (x := path) ?_ (hpath ▸ List.mem_map_of_mem hmem) hfresh ?_
    · intro y hy
      simp only [isFresh, followed, List.map_cons, List.contains_cons, Bool.not_or,
        Bool.and_eq_true] at hy ⊢
      exact ⟨hy.1.2, hy.2⟩
    · simp [isFresh, followed, hframe]
  · cases h

theorem freshPaths_replace (modules : List (Module α)) (found : Found) (frames : List Frame)
    (a b : Frame) (h : a.path = b.path) :
    freshPaths modules found (a :: frames) = freshPaths modules found (b :: frames) := by
  unfold freshPaths isFresh followed
  simp only [List.map_cons, h]

theorem freshPaths_finish (modules : List (Module α)) (found : Found) (frames : List Frame)
    (frame : Frame) (kept : List String) :
    freshPaths modules { found with finished := (frame.path, kept) :: found.finished } frames
      = freshPaths modules found (frame :: frames) := by
  apply List.filter_congr
  intro p _
  by_cases h : p = frame.path
  · simp [isFresh, followed, h]
  · simp [isFresh, followed, h, beq_eq_false_iff_ne.2 h]

/-- The imports still to be looked at, one more for every module that is being followed. -/
def pendingWork : List Frame → Nat
  | [] => 0
  | frame :: frames => frame.rest.length + 1 + pendingWork frames

/-- Runs the search until no module is being followed. -/
def explore (modules : List (Module α)) (found : Found) : List Frame → Found
  | [] => found
  | ⟨path, kept, []⟩ :: frames =>
    explore modules { found with finished := (path, kept) :: found.finished } frames
  | ⟨path, kept, d :: rest⟩ :: frames =>
    if d = path ∨ d ∈ followed frames then
      explore modules { found with pruned := found.pruned ++ [(path, d)] }
        (⟨path, kept, rest⟩ :: frames)
    else
      match _h : freshModule? modules found (⟨path, kept ++ [d], rest⟩ :: frames) d with
      | none => explore modules found (⟨path, kept ++ [d], rest⟩ :: frames)
      | some m =>
        explore modules found (⟨d, [], m.dependencies⟩ :: ⟨path, kept ++ [d], rest⟩ :: frames)
termination_by frames => ((freshPaths modules found frames).length, pendingWork frames)
decreasing_by
  · rw [freshPaths_finish modules found frames ⟨path, kept, []⟩ kept]
    apply Prod.Lex.right
    simp [pendingWork]
  · rw [freshPaths_replace modules found frames ⟨path, kept, d :: rest⟩ ⟨path, kept, rest⟩ rfl]
    apply Prod.Lex.right
    simp [pendingWork]
  · rw [freshPaths_replace modules found frames ⟨path, kept, d :: rest⟩ ⟨path, kept ++ [d], rest⟩
      rfl]
    apply Prod.Lex.right
    simp [pendingWork]
  · rw [freshPaths_replace modules found frames ⟨path, kept, d :: rest⟩ ⟨path, kept ++ [d], rest⟩
      rfl]
    exact Prod.Lex.left _ _ (length_freshPaths_lt _h _ rfl)

def exploreFrom (modules : List (Module α)) (found : Found) (m : Module α) : Found :=
  if isFresh found [] m.path then explore modules found [⟨m.path, [], m.dependencies⟩] else found

def search (modules : List (Module α)) : Found :=
  modules.foldl (exploreFrom modules) ⟨[], []⟩

/-- The modules in order, each with the imports that were kept. -/
def ordered (modules : List (Module α)) : List (Module α) :=
  (search modules).finished.map fun (path, kept) =>
    ⟨path, kept, (find? modules path).bind Module.result⟩

/-- The imports that were pruned, in the order in which they were met. -/
def prunedImports (modules : List (Module α)) : List (String × String) :=
  (search modules).pruned

end ComplexityMeter.Graph
