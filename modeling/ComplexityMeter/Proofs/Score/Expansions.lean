import ComplexityMeter.Proofs.Score.Growth
import ComplexityMeter.Score.File
import Mathlib.Data.Finset.Card

/-!
# Expanded nodes

A node is expanded when its parts are looked at for its result. A scoring that keeps a journal of
the nodes that it expands gives the results that scoring gives, and the journal shows that the two
guards bound what is expanded: each node of it was met below the ceiling and had not been scored,
and what counts as scored is what counted at the start together with the nodes of the journal.
-/

namespace ComplexityMeter.Score

open Syntax (Node)

variable {α : Type} [Scalar α]

/-- A node that is expanded, and the context in which it was met. -/
structure Expansion where
  node : Node
  met : Context

def Expansion.identity (e : Expansion) : Nat :=
  e.node.identity

/-- The context of a scoring and its expansions so far, the latest first. -/
structure Journal where
  context : Context
  expansions : List Expansion

namespace Journal

def start (c : Context) : Journal :=
  ⟨c, []⟩

def enter (n : Node) (j : Journal) : Journal :=
  ⟨j.context.enter n, ⟨n, j.context⟩ :: j.expansions⟩

def leave (j : Journal) : Journal :=
  { j with context := j.context.leave }

end Journal

/-- Scores a node and notes what is expanded for it. -/
def visitNoting (n : Node) : StateM Journal (Result α) := do
  let j ← get
  if j.context.isCutOff then
    return truncated n
  if n.identity ∈ j.context.visited then
    return circular n
  modify (Journal.enter n)
  let scored ← ((plan n).attachWith (·.size < n.size) fun _ => size_lt_of_mem_plan).mapM
    fun part => visitNoting part.1
  modify Journal.leave
  return composed n scored
termination_by n.size
decreasing_by exact part.2

theorem visitNoting_eq (n : Node) : visitNoting (α := α) n = do
    let j ← get
    if j.context.isCutOff then
      return truncated n
    if n.identity ∈ j.context.visited then
      return circular n
    modify (Journal.enter n)
    let scored ← (plan n).mapM visitNoting
    modify Journal.leave
    return composed n scored := by
  rw [visitNoting]
  simp only [Plan.mapM_attachWith]

/-! ### Journals -/

/-- Expansions of nodes that were not cut off and that had not been scored: neither at the start
nor by an earlier expansion. -/
inductive Orderly (start : Visited) : List Expansion → Prop where
  | nil : Orderly start []
  | cons {e : Expansion} {earlier : List Expansion} (within : e.met.isCutOff = false)
      (visited : e.met.visited = earlier.map Expansion.identity ++ start)
      (unscored : e.identity ∉ e.met.visited) (orderly : Orderly start earlier) :
      Orderly start (e :: earlier)

namespace Orderly

variable {start : Visited} {expansions : List Expansion}

theorem guarded (h : Orderly start expansions) {e : Expansion} (he : e ∈ expansions) :
    e.met.isCutOff = false ∧ e.identity ∉ e.met.visited := by
  induction h with
  | nil => cases he
  | cons within _ unscored _ ih =>
    rcases List.mem_cons.1 he with rfl | he
    · exact ⟨within, unscored⟩
    · exact ih he

theorem nodup (h : Orderly start expansions) : (expansions.map Expansion.identity).Nodup := by
  induction h with
  | nil => exact List.nodup_nil
  | cons _ visited unscored _ ih =>
    rw [visited, List.mem_append, not_or] at unscored
    exact List.nodup_cons.2 ⟨unscored.1, ih⟩

theorem disjoint (h : Orderly start expansions) :
    ∀ i ∈ expansions.map Expansion.identity, i ∉ start := by
  induction h with
  | nil => simp
  | cons _ visited unscored _ ih =>
    rw [visited, List.mem_append, not_or] at unscored
    exact List.forall_mem_cons.2 ⟨unscored.2, ih⟩

theorem card_visited (h : Orderly start expansions) :
    (expansions.map Expansion.identity ++ start).toFinset.card
      = start.toFinset.card + expansions.length := by
  have apart : Disjoint (expansions.map Expansion.identity).toFinset start.toFinset := by
    rw [Finset.disjoint_left]
    intro i hi known
    exact h.disjoint i (List.mem_toFinset.1 hi) (List.mem_toFinset.1 known)
  rw [List.toFinset_append, Finset.card_union_of_disjoint apart,
    List.toFinset_card_of_nodup h.nodup, List.length_map, Nat.add_comm]

end Orderly

/-- A journal keeps a context, and accounts for all that counts as scored in it. -/
structure Faithful (start : Visited) (j : Journal) (c : Context) : Prop where
  context_eq : j.context = c
  visited_eq : c.visited = j.expansions.map Expansion.identity ++ start
  orderly : Orderly start j.expansions

namespace Faithful

variable {start : Visited} {j : Journal} {c : Context} {n : Node}

theorem enter (h : Faithful start j c) (within : c.isCutOff = false)
    (unscored : n.identity ∉ c.visited) : Faithful start (j.enter n) (c.enter n) := by
  obtain ⟨rfl, visited, orderly⟩ := h
  exact ⟨rfl, congrArg (n.identity :: ·) visited, .cons within visited unscored orderly⟩

theorem leave (h : Faithful start j c) : Faithful start j.leave c.leave :=
  ⟨congrArg Context.leave h.context_eq, h.visited_eq, h.orderly⟩

end Faithful

/-- A scoring with a journal gives the result of the scoring without one, and keeps the journal
faithful. -/
theorem agree_visitNoting (start : Visited) (n : Node) :
    Agree (fun _ : List Node => Faithful start) [n] (visitNoting (α := α) n) (visit n) := by
  induction n using part_induction α with
  | step n ih =>
    intro rest j c faithful
    obtain rfl := faithful.context_eq
    rw [visitNoting_eq, visit_eq]
    cases within : j.context.isCutOff with
    | true => simpa [within] using ⟨rfl, faithful⟩
    | false =>
      by_cases known : n.identity ∈ j.context.visited
      · simpa [within, known] using ⟨rfl, faithful⟩
      · obtain ⟨same, faithful⟩ := Agree.plan_run ih (faithful.enter within known)
        simpa [within, known] using ⟨congrArg (composed n) same, faithful.leave⟩

/-! ### Sequences of calls -/

/-- What can be asked about a node while a context is in use. -/
inductive Call where
  | score (n : Node)
  | estimate (n : Node)
  | weight (n : Node)

inductive Answer (α : Type) where
  | result (result : Result α)
  | number (value : α)

def Call.answer {m : Type → Type} [Monad m] (visit : Node → m (Result α)) : Call → m (Answer α)
  | .score n => return .result (← visit n)
  | .estimate n => return .number (Score.estimate n)
  | .weight n => return .number (statementWeight n)

variable (α) in
def Call.run (call : Call) (c : Context) : Answer α × Context :=
  (call.answer visit).run c

variable (α) in
def runCalls (calls : List Call) (c : Context) : List (Answer α) × Context :=
  (calls.mapM (Call.answer visit)).run c

variable (α) in
def noteCalls (calls : List Call) (c : Context) : List (Answer α) × Journal :=
  (calls.mapM (Call.answer visitNoting)).run (Journal.start c)

theorem agree_answer (start : Visited) (call : Call) :
    Agree (fun _ : List Call => Faithful start) [call] (call.answer (α := α) visitNoting)
      (call.answer visit) := by
  intro rest j c faithful
  cases call with
  | score n =>
    obtain ⟨same, faithful⟩ := agree_visitNoting (α := α) start n [] j c faithful
    exact ⟨congrArg Answer.result same, faithful⟩
  | estimate n => exact ⟨rfl, faithful⟩
  | weight n => exact ⟨rfl, faithful⟩

theorem faithful_noteCalls (calls : List Call) (c : Context) :
    (noteCalls α calls c).1 = (runCalls α calls c).1
      ∧ Faithful c.visited (noteCalls α calls c).2 (runCalls α calls c).2 := by
  have each : ∀ call ∈ calls, Agree (fun _ : List Call => Faithful c.visited) [call]
      (call.answer (α := α) visitNoting) (call.answer visit) :=
    fun call _ => agree_answer c.visited call
  exact Agree.list each [] (Journal.start c) c ⟨rfl, rfl, .nil⟩

/-- What the guards promise for one call in a context. -/
structure CallGuarded (α : Type) [Scalar α] (c : Context) (call : Call) : Prop where
  depth_eq : (call.run α c).2.depth = c.depth
  keeps : c.visited ⊆ (call.run α c).2.visited
  unchanged : (∀ n, call ≠ .score n) → (call.run α c).2 = c
  cutOff : ∀ n, call = .score n → c.isCutOff = true → call.run α c = (.result (truncated n), c)
  repeated : ∀ n, call = .score n → c.isCutOff = false → n.identity ∈ c.visited →
    ∃ r : Result α, call.run α c = (.result r, c) ∧ r.isCircular = true ∧ r.parts = []
      ∧ r.score = estimate n ∧ r.facts.get? "estimated_score" = some (.number (estimate n))

/-- What the guards promise for a whole sequence of calls that starts in a context. -/
structure CallsGuarded (α : Type) [Scalar α] (c : Context) (calls : List Call) : Prop where
  same : (noteCalls α calls c).1 = (runCalls α calls c).1
    ∧ (noteCalls α calls c).2.context = (runCalls α calls c).2
  guarded : ∀ e ∈ (noteCalls α calls c).2.expansions,
    e.met.isCutOff = false ∧ e.identity ∉ e.met.visited
  once : ((noteCalls α calls c).2.expansions.map Expansion.identity).Nodup
  visited_eq : (runCalls α calls c).2.visited
    = (noteCalls α calls c).2.expansions.map Expansion.identity ++ c.visited
  growth : (runCalls α calls c).2.visited.toFinset.card
    = c.visited.toFinset.card + (noteCalls α calls c).2.expansions.length

theorem grows_run (call : Call) (c : Context) : ∃ ns, Grows ns c (call.run α c).2 := by
  cases call with
  | score n => exact ⟨n.nodes, grows_score n c⟩
  | estimate n => exact ⟨[], .refl [] c⟩
  | weight n => exact ⟨[], .refl [] c⟩

theorem run_score (n : Node) (c : Context) :
    (Call.score n).run α c = (.result (c.score n).1, (c.score (α := α) n).2) := rfl

theorem callGuarded (c : Context) (call : Call) : CallGuarded α c call where
  depth_eq := by
    obtain ⟨ns, grown⟩ := grows_run (α := α) call c
    exact grown.depth_eq
  keeps := by
    obtain ⟨ns, grown⟩ := grows_run (α := α) call c
    exact grown.visited_suffix.subset
  unchanged other := by
    cases call with
    | score n => exact absurd rfl (other n)
    | estimate n => rfl
    | weight n => rfl
  cutOff := by
    rintro n rfl cutOff
    rw [run_score, Context.score_of_cutOff cutOff]
  repeated := by
    rintro n rfl within known
    rw [run_score, Context.score_of_visited within known]
    exact ⟨circular n, rfl, rfl, rfl, rfl, rfl⟩

theorem callsGuarded (c : Context) (calls : List Call) : CallsGuarded α c calls := by
  obtain ⟨same, faithful⟩ := faithful_noteCalls (α := α) calls c
  exact ⟨⟨same, faithful.context_eq⟩, fun e he => faithful.orderly.guarded he,
    faithful.orderly.nodup, faithful.visited_eq, faithful.visited_eq ▸ faithful.orderly.card_visited⟩

/-- Whatever is asked about nodes of any trees, in any order and in any context, the guards hold
over the whole sequence of calls, and for every further call. -/
theorem guards_hold (c : Context) (calls : List Call) :
    CallsGuarded α c calls ∧ ∀ call, CallGuarded α (runCalls α calls c).2 call :=
  ⟨callsGuarded c calls, fun call => callGuarded _ call⟩

end ComplexityMeter.Score
