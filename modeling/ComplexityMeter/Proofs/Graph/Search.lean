import Mathlib.Data.List.Nodup
import Mathlib.Logic.Relation
import ComplexityMeter.Graph.Order

/-!
# Invariants of the search for an order

One step of the search finishes the module that is followed last, or looks at the next of its
imports: it prunes this one, keeps it, or keeps it and goes on to follow it. The invariants below
tie what has been found to the modules that are being followed. The module below a followed one has
kept it, so an edge that is pruned closes a cycle of kept ones; and what a finished module keeps has
been finished before it.
-/

namespace ComplexityMeter.Graph

open Relation

variable {α : Type} {modules : List (Module α)}

namespace Found

/-- The finished paths, the last one first. -/
def paths (found : Found) : List String :=
  found.finished.map Prod.fst

/-- What has been pruned from the imports of a path. -/
def prunedFrom (found : Found) (path : String) : List String :=
  (found.pruned.filter fun e => e.1 = path).map Prod.snd

@[simp] theorem paths_finish (found : Found) (path : String) (kept : List String) :
    paths { found with finished := (path, kept) :: found.finished } = path :: found.paths := rfl

@[simp] theorem paths_prune (found : Found) (e : String × String) :
    paths { found with pruned := found.pruned ++ [e] } = found.paths := rfl

@[simp] theorem prunedFrom_finish (found : Found) (entry : String × List String) (p : String) :
    prunedFrom { found with finished := entry :: found.finished } p = found.prunedFrom p := rfl

@[simp] theorem prunedFrom_prune_self (found : Found) (path d : String) :
    prunedFrom { found with pruned := found.pruned ++ [(path, d)] } path
      = found.prunedFrom path ++ [d] := by
  simp [prunedFrom]

theorem prunedFrom_prune_of_ne (found : Found) {path p : String} (d : String) (h : path ≠ p) :
    prunedFrom { found with pruned := found.pruned ++ [(path, d)] } p = found.prunedFrom p := by
  simp [prunedFrom, h]

theorem mem_prunedFrom {found : Found} {path d : String} :
    d ∈ found.prunedFrom path ↔ (path, d) ∈ found.pruned := by
  simp [prunedFrom]

end Found

@[simp] theorem followed_cons (f : Frame) (frames : List Frame) :
    followed (f :: frames) = f.path :: followed frames := rfl

/-- What a search has found, and the modules that it follows. -/
abbrev Progress := Found × List Frame

/-- One step of the search. -/
inductive Advance (modules : List (Module α)) : Progress → Progress → Prop
  | finish {found path kept frames} :
    Advance modules (found, ⟨path, kept, []⟩ :: frames)
      ({ found with finished := (path, kept) :: found.finished }, frames)
  | prune {found path kept d rest frames} (onPath : d ∈ path :: followed frames) :
    Advance modules (found, ⟨path, kept, d :: rest⟩ :: frames)
      ({ found with pruned := found.pruned ++ [(path, d)] }, ⟨path, kept, rest⟩ :: frames)
  | keep {found path kept d rest frames} (offPath : d ∉ path :: followed frames)
      (settled : d ∈ modules.map Module.path → d ∈ found.paths) :
    Advance modules (found, ⟨path, kept, d :: rest⟩ :: frames)
      (found, ⟨path, kept ++ [d], rest⟩ :: frames)
  | descend {found path kept d rest frames m} (offPath : d ∉ path :: followed frames)
      (fresh : d ∉ found.paths) (record : find? modules d = some m) :
    Advance modules (found, ⟨path, kept, d :: rest⟩ :: frames)
      (found, ⟨d, [], m.dependencies⟩ :: ⟨path, kept ++ [d], rest⟩ :: frames)

theorem find?_eq_none {d : String} : find? modules d = none ↔ d ∉ modules.map Module.path := by
  simp [find?]

theorem isFresh_iff {found : Found} {frames : List Frame} {d : String} :
    isFresh found frames d = true ↔ d ∉ followed frames ∧ d ∉ found.paths := by
  simp [isFresh, Found.paths]

variable (modules) in
theorem explore_advances (found : Found) (frames : List Frame) :
    ReflTransGen (Advance modules) (found, frames) (explore modules found frames, []) := by
  fun_induction explore modules found frames with
  | case1 found => exact .refl
  | case2 found path kept frames ih => exact .head .finish ih
  | case3 found path kept d rest frames onPath ih =>
    exact .head (.prune (by simpa using onPath)) ih
  | case4 found path kept d rest frames offPath none ih =>
    refine .head (.keep (by simpa using offPath) ?_) ih
    intro listed
    by_contra hd
    have fresh : isFresh found (⟨path, kept ++ [d], rest⟩ :: frames) d = true :=
      isFresh_iff.2 ⟨by simpa using offPath, hd⟩
    rw [freshModule?, if_pos fresh, find?_eq_none] at none
    exact none listed
  | case5 found path kept d rest frames offPath m some ih =>
    unfold freshModule? at some
    split at some
    · rename_i fresh
      exact .head (.descend (by simpa using offPath) (isFresh_iff.1 fresh).2 some) ih
    · cases some

/-- What every step preserves holds at the end of the search. -/
theorem explore_induction {P : Progress → Prop}
    (step : ∀ {s t}, Advance modules s t → P s → P t) {found : Found} {frames : List Frame}
    (start : P (found, frames)) : P (explore modules found frames, []) := by
  have run := explore_advances modules found frames
  generalize (explore modules found frames, []) = last at run ⊢
  induction run with
  | refl => exact start
  | tail _ h ih => exact step h ih

/-! ### Every module is followed once -/

/-- The finished and the followed paths are listed, and each occurs once. -/
structure Distinct (modules : List (Module α)) (s : Progress) : Prop where
  nodup : (s.1.paths ++ followed s.2).Nodup
  listed : ∀ p ∈ s.1.paths ++ followed s.2, p ∈ modules.map Module.path

theorem Distinct.advance {s t : Progress} (h : Advance modules s t) (hs : Distinct modules s) :
    Distinct modules t := by
  obtain ⟨nodup, listed⟩ := hs
  cases h with
  | finish =>
    constructor
    · simpa [List.nodup_middle] using nodup
    · intro p hp
      apply listed
      simp only [Found.paths_finish, List.cons_append, List.mem_cons, List.mem_append,
        followed_cons] at hp ⊢
      tauto
  | prune => exact ⟨nodup, listed⟩
  | keep => exact ⟨nodup, listed⟩
  | @descend found path kept d rest frames m offPath fresh record =>
    obtain ⟨member, rfl⟩ := find?_path record
    constructor
    · rw [followed_cons, List.nodup_middle, List.nodup_cons]
      exact ⟨List.mem_append.not.2 (not_or.2 ⟨fresh, offPath⟩), nodup⟩
    · intro p hp
      simp only [followed_cons, List.mem_append, List.mem_cons] at hp listed
      rcases hp with hp | rfl | hp
      · exact listed p (.inl hp)
      · exact List.mem_map_of_mem member
      · exact listed p (.inr hp)

theorem Advance.paths_subset {s t : Progress} (h : Advance modules s t) {p : String}
    (hp : p ∈ s.1.paths ++ followed s.2) : p ∈ t.1.paths ++ followed t.2 := by
  cases h <;> simp only [Found.paths_finish, Found.paths_prune, followed_cons, List.mem_append,
    List.mem_cons] at hp ⊢ <;> tauto

theorem mem_paths_explore {found : Found} {frames : List Frame} {p : String}
    (hp : p ∈ found.paths ++ followed frames) : p ∈ (explore modules found frames).paths := by
  simpa [followed] using explore_induction
    (P := fun s => p ∈ s.1.paths ++ followed s.2) (fun h => h.paths_subset) hp

/-! ### Kept imports are finished first -/

/-- Every finished module stands after its kept imports, as far as they are listed. -/
def Closed (listed : List String) : List (String × List String) → Prop
  | [] => True
  | (_, kept) :: older =>
    (∀ d ∈ kept, d ∈ listed → d ∈ older.map Prod.fst) ∧ Closed listed older

/-- The kept imports of every followed module are among the paths in `done` or followed above it. -/
def Covered (listed : List String) : List String → List Frame → Prop
  | _, [] => True
  | done, f :: below =>
    (∀ d ∈ f.kept, d ∈ listed → d ∈ done) ∧ Covered listed (f.path :: done) below

theorem Covered.mono {listed done more : List String} {frames : List Frame}
    (h : Covered listed done frames) (hsub : done ⊆ more) : Covered listed more frames := by
  induction frames generalizing done more with
  | nil => trivial
  | cons f below ih =>
    exact ⟨fun d hd hl => hsub (h.1 d hd hl), ih h.2 (List.cons_subset_cons f.path hsub)⟩

/-- The finished modules are in order, and the followed ones will be. -/
structure InOrder (modules : List (Module α)) (s : Progress) : Prop where
  closed : Closed (modules.map Module.path) s.1.finished
  covered : Covered (modules.map Module.path) s.1.paths s.2

theorem InOrder.advance {s t : Progress} (h : Advance modules s t) (hs : InOrder modules s) :
    InOrder modules t := by
  obtain ⟨closed, covered⟩ := hs
  cases h with
  | finish => exact ⟨⟨covered.1, closed⟩, covered.2⟩
  | prune => exact ⟨closed, covered⟩
  | keep offPath settled =>
    refine ⟨closed, ?_, covered.2⟩
    intro e he listed
    rcases List.mem_append.1 he with he | he
    · exact covered.1 e he listed
    · obtain rfl := List.mem_singleton.1 he
      exact settled listed
  | @descend found path kept d rest frames m offPath fresh record =>
    refine ⟨closed, by simp, ?_, ?_⟩
    · intro e he listed
      rcases List.mem_append.1 he with he | he
      · exact List.mem_cons_of_mem _ (covered.1 e he listed)
      · exact List.mem_cons.2 (.inl (List.mem_singleton.1 he))
    · exact covered.2.mono (List.cons_subset_cons path (List.subset_cons_self d found.paths))

/-! ### Pruned imports close cycles -/

def Keeps (s : Progress) (p d : String) : Prop :=
  (∃ kept, (p, kept) ∈ s.1.finished ∧ d ∈ kept) ∨ ∃ f ∈ s.2, f.path = p ∧ d ∈ f.kept

theorem Advance.keeps {s t : Progress} (h : Advance modules s t) {p d : String}
    (hk : Keeps s p d) : Keeps t p d := by
  rcases hk with ⟨kept, hmem, hd⟩ | ⟨f, hf, rfl, hd⟩
  · refine .inl ⟨kept, ?_, hd⟩
    cases h with
    | finish => exact List.mem_cons_of_mem _ hmem
    | prune | keep | descend => exact hmem
  · cases h with
    | finish =>
      rcases List.mem_cons.1 hf with rfl | hf
      · exact .inl ⟨_, List.mem_cons_self, hd⟩
      · exact .inr ⟨f, hf, rfl, hd⟩
    | prune =>
      rcases List.mem_cons.1 hf with rfl | hf
      · exact .inr ⟨_, List.mem_cons_self, rfl, hd⟩
      · exact .inr ⟨f, List.mem_cons_of_mem _ hf, rfl, hd⟩
    | keep =>
      rcases List.mem_cons.1 hf with rfl | hf
      · exact .inr ⟨_, List.mem_cons_self, rfl, List.mem_append_left _ hd⟩
      · exact .inr ⟨f, List.mem_cons_of_mem _ hf, rfl, hd⟩
    | descend =>
      rcases List.mem_cons.1 hf with rfl | hf
      · exact .inr ⟨_, List.mem_cons_of_mem _ List.mem_cons_self, rfl, List.mem_append_left _ hd⟩
      · exact .inr ⟨f, List.mem_cons_of_mem _ (List.mem_cons_of_mem _ hf), rfl, hd⟩

/-- Every followed module is a kept import of the one below it. -/
def Linked : List Frame → Prop
  | [] => True
  | f :: below => (∀ g ∈ below.head?, f.path ∈ g.kept) ∧ Linked below

theorem Linked.cons_of_path {f g : Frame} {below : List Frame} (h : Linked (f :: below))
    (hpath : g.path = f.path) : Linked (g :: below) :=
  ⟨fun x hx => hpath ▸ h.1 x hx, h.2⟩

/-- The module that is followed last is reached from every followed module. -/
theorem Linked.reaches {found : Found} {f : Frame} {below : List Frame}
    (h : Linked (f :: below)) {d : String} (hd : d ∈ followed (f :: below)) :
    ReflTransGen (Keeps (found, f :: below)) d f.path := by
  induction below generalizing f with
  | nil =>
    obtain rfl : d = f.path := by simpa [followed] using hd
    exact .refl
  | cons g below ih =>
    rcases List.mem_cons.1 hd with rfl | hd
    · exact .refl
    · have lift : ∀ a b, Keeps (found, g :: below) a b → Keeps (found, f :: g :: below) a b := by
        rintro a b (hfin | ⟨x, hx, hab⟩)
        · exact .inl hfin
        · exact .inr ⟨x, List.mem_cons_of_mem _ hx, hab⟩
      have reach := ReflTransGen.mono lift _ _ (ih h.2 hd)
      exact reach.tail (.inr ⟨g, by simp, rfl, h.1 g rfl⟩)

/-- The followed modules are linked, and all that has been pruned closes a cycle. -/
structure Cyclic (s : Progress) : Prop where
  linked : Linked s.2
  cycle : ∀ e ∈ s.1.pruned, ReflTransGen (Keeps s) e.2 e.1

theorem Cyclic.advance {s t : Progress} (h : Advance modules s t) (hs : Cyclic s) : Cyclic t := by
  have old : ∀ e ∈ s.1.pruned, ReflTransGen (Keeps t) e.2 e.1 := fun e he =>
    ReflTransGen.mono (fun _ _ => h.keeps) _ _ (hs.cycle e he)
  have linked := hs.linked
  cases h with
  | finish => exact ⟨linked.2, old⟩
  | @prune found path kept d rest frames onPath =>
    refine ⟨linked.cons_of_path rfl, ?_⟩
    intro e he
    rcases List.mem_append.1 he with he | he
    · exact old e he
    · obtain rfl := List.mem_singleton.1 he
      exact (linked.cons_of_path (g := ⟨path, kept, rest⟩) rfl).reaches onPath
  | keep => exact ⟨linked.cons_of_path rfl, old⟩
  | descend =>
    refine ⟨⟨?_, linked.cons_of_path rfl⟩, old⟩
    intro g hg
    obtain rfl := Option.some.inj hg
    simp

/-! ### Imports are kept or pruned -/

/-- What has become of the imports of a module: `rest` is still to be looked at, and of the others
those in `chain` have been pruned and those outside of it kept. -/
def Divided (modules : List (Module α)) (found : Found) (path : String)
    (kept rest chain : List String) : Prop :=
  ∃ m ∈ modules, m.path = path ∧ ∃ done, m.dependencies = done ++ rest ∧
    kept = done.filter (fun d => d ∉ chain) ∧ found.prunedFrom path = done.filter (fun d => d ∈ chain)

theorem Divided.congr {found later : Found} {path : String} {kept rest chain : List String}
    (h : Divided modules found path kept rest chain)
    (same : later.prunedFrom path = found.prunedFrom path) :
    Divided modules later path kept rest chain := by
  obtain ⟨m, member, hpath, done, hdone, hkept, hpruned⟩ := h
  exact ⟨m, member, hpath, done, hdone, hkept, same.trans hpruned⟩

theorem Divided.prune {found : Found} {path d : String} {kept rest chain : List String}
    (h : Divided modules found path kept (d :: rest) chain) (hd : d ∈ chain) :
    Divided modules { found with pruned := found.pruned ++ [(path, d)] } path kept rest chain := by
  obtain ⟨m, member, hpath, done, hdone, hkept, hpruned⟩ := h
  refine ⟨m, member, hpath, done ++ [d], by simpa using hdone, ?_, ?_⟩
  · simpa [List.filter_append, hd] using hkept
  · simpa [List.filter_append, hd] using hpruned

theorem Divided.keep {found : Found} {path d : String} {kept rest chain : List String}
    (h : Divided modules found path kept (d :: rest) chain) (hd : d ∉ chain) :
    Divided modules found path (kept ++ [d]) rest chain := by
  obtain ⟨m, member, hpath, done, hdone, hkept, hpruned⟩ := h
  refine ⟨m, member, hpath, done ++ [d], by simpa using hdone, ?_, ?_⟩
  · simpa [List.filter_append, hd] using hkept
  · simpa [List.filter_append, hd] using hpruned

theorem Divided.start {found : Found} {m : Module α} (member : m ∈ modules)
    (untouched : found.prunedFrom m.path = []) (chain : List String) :
    Divided modules found m.path [] m.dependencies chain :=
  ⟨m, member, rfl, [], rfl, rfl, untouched⟩

/-- The imports of followed modules are divided by what is followed below them and by themselves. -/
def DividedAll (modules : List (Module α)) (found : Found) : List Frame → Prop
  | [] => True
  | f :: below =>
    Divided modules found f.path f.kept f.rest (f.path :: followed below)
      ∧ DividedAll modules found below

theorem DividedAll.congr {found later : Found} {frames : List Frame}
    (h : DividedAll modules found frames)
    (same : ∀ p ∈ followed frames, later.prunedFrom p = found.prunedFrom p) :
    DividedAll modules later frames := by
  induction frames with
  | nil => trivial
  | cons f below ih =>
    exact ⟨h.1.congr (same _ List.mem_cons_self),
      ih h.2 fun p hp => same p (List.mem_cons_of_mem _ hp)⟩

/-- The imports of all modules are accounted for; nothing is pruned from a module that has not been
met. -/
structure Accounted (modules : List (Module α)) (s : Progress) : Prop where
  finished : ∀ e ∈ s.1.finished, ∃ chain, Divided modules s.1 e.1 e.2 [] chain
  following : DividedAll modules s.1 s.2
  untouched : ∀ p, p ∉ s.1.paths ++ followed s.2 → s.1.prunedFrom p = []

theorem Accounted.advance {s t : Progress} (h : Advance modules s t) (distinct : Distinct modules s)
    (hs : Accounted modules s) : Accounted modules t := by
  obtain ⟨finished, following, untouched⟩ := hs
  cases h with
  | @finish found path kept frames =>
    refine ⟨?_, following.2.congr fun _ _ => rfl, ?_⟩
    · intro e he
      rcases List.mem_cons.1 he with rfl | he
      · exact ⟨_, following.1.congr rfl⟩
      · obtain ⟨chain, hchain⟩ := finished e he
        exact ⟨chain, hchain.congr rfl⟩
    · intro p hp
      apply untouched p
      simp only [Found.paths_finish, followed_cons, List.mem_append, List.mem_cons] at hp ⊢
      tauto
  | @prune found path kept d rest frames onPath =>
    -- only the imports of the module on top are touched, and its path occurs nowhere else
    have alone : path ∉ found.paths ++ followed frames := by
      have nodup := distinct.nodup
      rw [followed_cons, List.nodup_middle, List.nodup_cons] at nodup
      exact nodup.1
    have same : ∀ p ∈ found.paths ++ followed frames,
        Found.prunedFrom { found with pruned := found.pruned ++ [(path, d)] } p
          = found.prunedFrom p := by
      intro p hp
      apply Found.prunedFrom_prune_of_ne
      rintro rfl
      exact alone hp
    refine ⟨?_, ⟨following.1.prune onPath, following.2.congr ?_⟩, ?_⟩
    · intro e he
      obtain ⟨chain, hchain⟩ := finished e he
      exact ⟨chain, hchain.congr (same _ (List.mem_append_left _ (List.mem_map_of_mem he)))⟩
    · intro p hp
      exact same p (List.mem_append_right _ hp)
    · intro p hp
      rw [Found.prunedFrom_prune_of_ne]
      · exact untouched p hp
      · rintro rfl
        simp at hp
  | keep offPath _ => exact ⟨finished, ⟨following.1.keep offPath, following.2⟩, untouched⟩
  | @descend found path kept d rest frames m offPath fresh record =>
    obtain ⟨member, rfl⟩ := find?_path record
    have unmet : m.path ∉ found.paths ++ followed (⟨path, kept, m.path :: rest⟩ :: frames) :=
      List.mem_append.not.2 (not_or.2 ⟨fresh, offPath⟩)
    refine ⟨finished, ⟨.start member (untouched _ unmet) _, following.1.keep offPath, following.2⟩, ?_⟩
    intro p hp
    apply untouched p
    simp only [followed_cons, List.mem_append, List.mem_cons] at hp ⊢
    tauto

/-! ### The whole search -/

/-- All that holds at every moment of a search. -/
structure SearchInvariant (modules : List (Module α)) (s : Progress) : Prop where
  distinct : Distinct modules s
  inOrder : InOrder modules s
  cyclic : Cyclic s
  accounted : Accounted modules s

theorem SearchInvariant.advance {s t : Progress} (h : Advance modules s t)
    (hs : SearchInvariant modules s) : SearchInvariant modules t :=
  ⟨hs.distinct.advance h, hs.inOrder.advance h, hs.cyclic.advance h,
    hs.accounted.advance h hs.distinct⟩

theorem SearchInvariant.initial : SearchInvariant modules (⟨[], []⟩, []) where
  distinct := ⟨by simp [Found.paths, followed], by simp [Found.paths, followed]⟩
  inOrder := ⟨trivial, trivial⟩
  cyclic := ⟨trivial, by simp⟩
  accounted := ⟨by simp, trivial, by simp [Found.prunedFrom]⟩

/-- A module that has not been met can be followed next. -/
theorem SearchInvariant.follow {found : Found} {m : Module α}
    (h : SearchInvariant modules (found, [])) (member : m ∈ modules) (fresh : m.path ∉ found.paths) :
    SearchInvariant modules (found, [⟨m.path, [], m.dependencies⟩]) where
  distinct := by
    obtain ⟨nodup, listed⟩ := h.distinct
    constructor
    · rw [followed_cons, List.nodup_middle, List.nodup_cons]
      exact ⟨by simpa [followed] using fresh, nodup⟩
    · intro p hp
      simp only [followed_cons, List.mem_append, List.mem_cons] at hp listed
      rcases hp with hp | rfl | hp
      · exact listed p (.inl hp)
      · exact List.mem_map_of_mem member
      · exact listed p (.inr hp)
  inOrder := ⟨h.inOrder.closed, by simp, trivial⟩
  cyclic := by
    refine ⟨⟨by simp, trivial⟩, fun e he => ?_⟩
    refine ReflTransGen.mono ?_ _ _ (h.cyclic.cycle e he)
    rintro a b (hfin | ⟨x, hx, -⟩)
    · exact .inl hfin
    · cases hx
  accounted := by
    obtain ⟨finished, -, untouched⟩ := h.accounted
    refine ⟨finished, ⟨.start member (untouched _ (by simpa [followed] using fresh)) _, trivial⟩, ?_⟩
    intro p hp
    apply untouched p
    simp only [followed_cons, List.mem_append, List.mem_cons] at hp ⊢
    tauto

/-- Following one module after the other keeps the invariant, and finishes them all. -/
theorem foldl_exploreFrom (roots : List (Module α)) (listed : roots ⊆ modules) {found : Found}
    (h : SearchInvariant modules (found, [])) :
    SearchInvariant modules (roots.foldl (exploreFrom modules) found, []) ∧
      ∀ p, (p ∈ found.paths ∨ p ∈ roots.map Module.path) →
        p ∈ (roots.foldl (exploreFrom modules) found).paths := by
  induction roots generalizing found with
  | nil => exact ⟨h, fun p hp => by simpa using hp⟩
  | cons m rest ih =>
    have rest_listed : rest ⊆ modules := List.subset_of_cons_subset listed
    by_cases fresh : m.path ∈ found.paths
    · have skip : exploreFrom modules found m = found := by
        rw [exploreFrom, if_neg]
        simp [isFresh_iff, fresh]
      rw [List.foldl_cons, skip]
      refine ⟨(ih rest_listed h).1, fun p hp => (ih rest_listed h).2 p ?_⟩
      rcases hp with hp | hp
      · exact .inl hp
      · rcases List.mem_cons.1 hp with rfl | hp
        · exact .inl fresh
        · exact .inr hp
    · have follow : exploreFrom modules found m
          = explore modules found [⟨m.path, [], m.dependencies⟩] := by
        rw [exploreFrom, if_pos]
        exact isFresh_iff.2 ⟨by simp [followed], fresh⟩
      have next : SearchInvariant modules (exploreFrom modules found m, []) := by
        rw [follow]
        exact explore_induction (fun step => SearchInvariant.advance step)
          (h.follow (listed List.mem_cons_self) fresh)
      have met : ∀ p, p ∈ found.paths ∨ p = m.path → p ∈ (exploreFrom modules found m).paths := by
        intro p hp
        rw [follow]
        apply mem_paths_explore
        simpa [followed] using hp
      rw [List.foldl_cons]
      refine ⟨(ih rest_listed next).1, fun p hp => (ih rest_listed next).2 p ?_⟩
      rcases hp with hp | hp
      · exact .inl (met p (.inl hp))
      · rcases List.mem_cons.1 hp with rfl | hp
        · exact .inl (met _ (.inr rfl))
        · exact .inr hp

theorem search_invariant (modules : List (Module α)) :
    SearchInvariant modules (search modules, []) :=
  (foldl_exploreFrom modules (List.Subset.refl _) .initial).1

theorem mem_paths_search {p : String} :
    p ∈ (search modules).paths ↔ p ∈ modules.map Module.path := by
  constructor
  · intro hp
    exact (search_invariant modules).distinct.listed p (List.mem_append_left _ hp)
  · intro hp
    exact (foldl_exploreFrom modules (List.Subset.refl _) .initial).2 p (.inr hp)

end ComplexityMeter.Graph
