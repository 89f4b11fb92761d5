/-!
# Sorting by runs

A stable sort for comparisons that need not be an order, so that the comparisons that are made
decide the outcome. The list is taken apart into runs that rise already; a run that falls is turned
around, and one that is short is extended by insertion. Neighbouring runs are merged in the order
of a balanced tree over the whole list. A merge starts from the shorter side and searches ahead
when one side keeps winning.
-/

namespace ComplexityMeter.Score.Runs

variable {β : Type}

/-! ### Searches -/

/-- The place where `before` ends, from `low` to `high`, found by halving. -/
def placeBetween (before : β → Bool) (items : List β) (low high : Nat) : Nat :=
  if low < high then
    let middle := low + (high - low) / 2
    if (items[middle]?).any before then placeBetween before items (middle + 1) high
    else placeBetween before items low middle
  else low
termination_by high - low

/-- The last distance that goes on, and the first one that does not or reaches the limit; distances
are one less than powers of two. -/
def widened (goesOn : Nat → Bool) (limit : Nat) : (steps last next : Nat) → Nat × Nat
  | 0, last, next => (last, min next limit)
  | steps + 1, last, next =>
    if next < limit ∧ goesOn next then widened goesOn limit steps next (2 * next + 1)
    else (last, min next limit)

/-- The place where `before` ends, sought from a position outwards in growing steps. -/
def placeFrom (before : β → Bool) (items : List β) (start : Nat) : Nat :=
  if (items[start]?).any before then
    let (last, next) := widened (fun d => (items[start + d]?).any before)
      (items.length - start) items.length 0 1
    placeBetween before items (start + last + 1) (start + next)
  else
    let (last, next) := widened (fun d => !(items[start - d]?).any before) (start + 1)
      items.length 0 1
    placeBetween before items (start + 1 - next) (start - last)

/-! ### Single runs -/

def insertItem (less : β → β → Bool) (items : List β) (item : β) : List β :=
  let place := placeBetween (fun other => !less item other) items 0 items.length
  items.take place ++ item :: items.drop place

/-- How many neighbours follow a relation, from the start of a list. -/
def stepsWhile (follows : β → β → Bool) : List β → Nat
  | first :: second :: rest =>
    if follows first second then stepsWhile follows (second :: rest) + 1 else 0
  | _ => 0

/-- The ordered beginning of a list, turned around if it falls, and the rest. -/
def firstRun (less : β → β → Bool) (items : List β) : List β × List β :=
  let falling := stepsWhile (fun a b => less b a) items + 1
  let rising := stepsWhile (fun a b => !less b a) items + 1
  if 1 < falling then ((items.take falling).reverse, items.drop falling)
  else (items.take rising, items.drop rising)

/-- A run of at least a length, unless the list ends, and the rest. -/
def runOf (less : β → β → Bool) (least : Nat) (items : List β) : List β × List β :=
  let (run, rest) := firstRun less items
  let missing := least - run.length
  ((rest.take missing).foldl (insertItem less) run, rest.drop missing)

/-- The least length of a run: what is left of the length of a list after halving it below 64,
rounded up. -/
def leastRun : (steps length : Nat) → (odd : Bool) → Nat
  | 0, length, odd => length + odd.toNat
  | steps + 1, length, odd =>
    if length < 64 then length + odd.toNat
    else leastRun steps (length / 2) (odd || length % 2 = 1)

/-! ### Merges -/

/-- How often one side has to win before a merge searches ahead. -/
def patience : Nat := 7

/-- A merge under way. It takes items from both sides, seen from the end at which it started. A side
that wins against an equal item is `steady`. -/
structure Merge (β : Type) where
  /-- What has been taken, the last item first. -/
  taken : List β
  eager : List β
  steady : List β
  /-- How often one side has to win now before the merge searches ahead. -/
  threshold : Nat

/-- The end of two runs at which a merge starts. -/
inductive Side where
  | front
  | back
  deriving DecidableEq, Repr

namespace Merge

/-- All items, in the order in which they are taken if nothing else is compared. -/
def items (m : Merge β) : List β :=
  m.taken.reverse ++ m.eager ++ m.steady

def isOver (m : Merge β) : Bool :=
  m.eager.isEmpty || m.steady.length ≤ 1

def takeEager (m : Merge β) (count : Nat) : Merge β :=
  { m with taken := (m.eager.take count).reverse ++ m.taken, eager := m.eager.drop count }

def takeSteady (m : Merge β) (count : Nat) : Merge β :=
  { m with taken := (m.steady.take count).reverse ++ m.taken, steady := m.steady.drop count }

/-- How many items of the eager side come before the next item of the steady one. -/
def eagerCount (less : β → β → Bool) (side : Side) (m : Merge β) : Nat :=
  match m.steady with
  | [] => 0
  | y :: _ =>
    match side with
    | .front => placeFrom (fun x => less x y) m.eager 0
    | .back =>
      let n := m.eager.length
      n - placeFrom (fun x => !less y x) m.eager.reverse (n - 1)

def steadyCount (less : β → β → Bool) (side : Side) (m : Merge β) : Nat :=
  match m.eager with
  | [] => 0
  | x :: _ =>
    match side with
    | .front => placeFrom (fun y => !less x y) m.steady 0
    | .back =>
      let n := m.steady.length
      n - placeFrom (fun y => less y x) m.steady.reverse (n - 1)

def eagerWins (less : β → β → Bool) (side : Side) (m : Merge β) : Bool :=
  match m.eager, m.steady with
  | x :: _, y :: _ =>
    match side with
    | .front => less x y
    | .back => less y x
  | _, _ => false

/-- Goes on with operations until the merge is over. -/
def upTo (m : Merge β) : List (Merge β → Merge β) → Merge β
  | [] => m
  | next :: rest => if m.isOver then m else (next m).upTo rest

/-- What a round of searching ahead does, and how many items it finds on either side. -/
def searchRound (less : β → β → Bool) (side : Side) (m : Merge β) : Merge β × Nat × Nat :=
  match side with
  | .front =>
    let steady := m.steadyCount less side
    let halfway := (m.takeSteady steady).upTo [fun m => m.takeEager 1]
    let eager := halfway.eagerCount less side
    (halfway.upTo [fun m => m.takeEager eager, fun m => m.takeSteady 1], eager, steady)
  | .back =>
    let eager := m.eagerCount less side
    let halfway := (m.takeEager eager).upTo [fun m => m.takeSteady 1]
    let steady := halfway.steadyCount less side
    (halfway.upTo [fun m => m.takeSteady steady, fun m => m.takeEager 1], eager, steady)

/-- Takes items until the merge is over. It searches ahead while `searching`; otherwise the counts
say how often a side has won in sequence. -/
def finished (less : β → β → Bool) (side : Side) :
    (steps : Nat) → (searching : Bool) → (eagerWon steadyWon : Nat) → Merge β → Merge β
  | 0, _, _, _, m => m
  | steps + 1, searching, eagerWon, steadyWon, m =>
    if m.isOver then m
    else if searching then
      let m := { m with threshold := max 1 (m.threshold - 1) }
      let (m, eager, steady) := searchRound less side m
      if m.isOver then m
      else if patience ≤ eager ∨ patience ≤ steady then finished less side steps true 0 0 m
      else finished less side steps false 0 0 { m with threshold := m.threshold + 1 }
    else if m.eagerWins less side then
      let m := m.takeEager 1
      if m.threshold ≤ eagerWon + 1 ∧ ¬ m.isOver then
        finished less side steps true 0 0 { m with threshold := m.threshold + 1 }
      else finished less side steps false (eagerWon + 1) 0 m
    else
      let m := m.takeSteady 1
      if m.threshold ≤ steadyWon + 1 ∧ ¬ m.isOver then
        finished less side steps true 0 0 { m with threshold := m.threshold + 1 }
      else finished less side steps false 0 (steadyWon + 1) m

end Merge

/-- Two neighbouring runs as one, and the threshold for the next merge. What is in place already at
either end is left out of the merge. -/
def merged (less : β → β → Bool) (threshold : Nat) (first second : List β) : List β × Nat :=
  match second with
  | [] => (first, threshold)
  | start :: _ =>
    let placed := placeFrom (fun x => !less start x) first 0
    match (first.drop placed).getLast? with
    | none => (first ++ second, threshold)
    | some last =>
      let a := first.drop placed
      let count := placeFrom (fun y => less y last) second (second.length - 1)
      let b := second.take count
      let steps := 2 * (a.length + b.length) + 2
      if b.isEmpty then (first ++ second, threshold)
      else if a.length ≤ b.length then
        let m := (⟨[], b, a, threshold⟩ : Merge β).takeEager 1
        let m := m.finished less .front steps false 0 0
        (first.take placed ++ m.items ++ second.drop count, m.threshold)
      else
        let m := (⟨[], a.reverse, b.reverse, threshold⟩ : Merge β).takeEager 1
        let m := m.finished less .back steps false 0 0
        (first.take placed ++ m.items.reverse ++ second.drop count, m.threshold)

/-! ### All runs -/

/-- A run that waits to be merged. -/
structure Pending (β : Type) where
  /-- Where the run starts in the list. -/
  start : Nat
  items : List β
  /-- The depth of the node between this run and the next. -/
  depth : Nat

/-- The depth at which a balanced tree over `n` places separates two middles, given twice. -/
def separatingDepth (n : Nat) : (steps a b : Nat) → Nat
  | 0, _, _ => 0
  | steps + 1, a, b =>
    if n ≤ a then separatingDepth n steps (2 * (a - n)) (2 * (b - n)) + 1
    else if n ≤ b then 1
    else separatingDepth n steps (2 * a) (2 * b) + 1

/-- Merges the last run with the one before it while that one lies deeper than a node; the last run
comes first. -/
def settled (less : β → β → Bool) (depth : Nat) :
    (steps : Nat) → (threshold : Nat) → List (Pending β) → List (Pending β) × Nat
  | 0, threshold, runs => (runs, threshold)
  | steps + 1, threshold, runs =>
    match runs with
    | last :: previous :: rest =>
      if depth < previous.depth then
        let (items, threshold) := merged less threshold previous.items last.items
        settled less depth steps threshold ({ previous with items } :: rest)
      else (runs, threshold)
    | _ => (runs, threshold)

/-- Merges all runs; the last run comes first. -/
def collapsed (less : β → β → Bool) :
    (steps : Nat) → (threshold : Nat) → List (Pending β) → List β
  | 0, _, runs => (runs.reverse.map Pending.items).flatten
  | steps + 1, threshold, runs =>
    match runs with
    | [] => []
    | [only] => only.items
    | last :: previous :: [] => (merged less threshold previous.items last.items).1
    | last :: previous :: before :: rest =>
      if before.items.length < last.items.length then
        let (items, threshold) := merged less threshold before.items previous.items
        collapsed less steps threshold (last :: { before with items } :: rest)
      else
        let (items, threshold) := merged less threshold previous.items last.items
        collapsed less steps threshold ({ previous with items } :: before :: rest)

def sortedAfter (less : β → β → Bool) (n least : Nat) :
    (steps : Nat) → (threshold : Nat) → List (Pending β) → List β → List β
  | 0, threshold, runs, items => collapsed less n threshold runs ++ items
  | steps + 1, threshold, runs, items =>
    if items.isEmpty then collapsed less n threshold runs
    else
      let start := n - items.length
      let (run, rest) := runOf less least items
      match runs with
      | [] => sortedAfter less n least steps threshold [⟨start, run, 0⟩] rest
      | last :: _ =>
        let a := 2 * last.start + last.items.length
        let depth := separatingDepth n (n + 1) a (a + last.items.length + run.length)
        match settled less depth n threshold runs with
        | (top :: others, threshold) =>
          sortedAfter less n least steps threshold
            (⟨start, run, 0⟩ :: { top with depth } :: others) rest
        | ([], threshold) => sortedAfter less n least steps threshold [⟨start, run, 0⟩] rest

/-- A list in the order of a comparison. -/
def sort (less : β → β → Bool) (items : List β) : List β :=
  let n := items.length
  sortedAfter less n (leastRun n n false) n patience [] items

end ComplexityMeter.Score.Runs
