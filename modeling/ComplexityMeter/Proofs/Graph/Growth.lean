import ComplexityMeter.Proofs.Graph.Completion

/-!
# Totals of higher scores

Two lists with the same paths, the same imports and results for the same modules lead a computation
the same way: what it follows, reads, records and cuts off does not depend on the numbers. So the
two computations run in step, and where one list scores at least what the other one does, each
number that it computes is at least the number that the other one computes at the same moment. For
this the sums that a higher damping multiplies must not be negative, and those of the higher scores
are not.
-/

namespace ComplexityMeter.Graph

open Score (Result)

/-- One value is at most another one, which is not negative. -/
structure Below (x x' : ℝ) : Prop where
  le : x ≤ x'
  nonneg : 0 ≤ x'

/-- A result whose scores are below those of another one, its own as those of its direct parts. -/
structure ResultBelow (r r' : Result ℝ) : Prop where
  score : Below r.score r'.score
  parts : List.Forall₂ (fun c c' => Below c.score c'.score) r.parts r'.parts

/-- A module with the path and the imports of another one and a result below that of it, if that one
has one. -/
structure ModuleBelow (m m' : Module ℝ) : Prop where
  path : m.path = m'.path
  dependencies : m.dependencies = m'.dependencies
  result : Option.Rel ResultBelow m.result m'.result

/-- Totals of the same paths that are below others. -/
def TotalsBelow (t t' : Totals ℝ) : Prop :=
  ∀ p, Option.Rel Below (t.get? p) (t'.get? p)

/-- A value and totals that are below others. -/
structure ReadingBelow (a a' : ℝ × Totals ℝ) : Prop where
  value : Below a.1 a'.1
  totals : TotalsBelow a.2 a'.2

theorem rel_cases {β : Type} {R : β → β → Prop} {b b' : Option β} (h : Option.Rel R b b') :
    (b = none ∧ b' = none) ∨ ∃ c c', b = some c ∧ b' = some c' ∧ R c c' := by
  cases h with
  | none => exact .inl ⟨rfl, rfl⟩
  | some h => exact .inr ⟨_, _, rfl, rfl, h⟩

/-! ### Numbers -/

theorem Below.zero : Below 0.0 0.0 := by constructor <;> norm_num

theorem Below.add {x x' y y' : ℝ} (hx : Below x x') (hy : Below y y') : Below (x + y) (x' + y') :=
  ⟨add_le_add hx.le hy.le, add_nonneg hx.nonneg hy.nonneg⟩

theorem Below.getD {x x' : Option ℝ} {y y' : ℝ} (h : Option.Rel Below x x') (hy : Below y y') :
    Below (x.getD y) (x'.getD y') := by
  cases h with
  | some h => exact h
  | none => exact hy

theorem Below.getD_map {β : Type} {R : β → β → Prop} {f : β → ℝ} {b b' : Option β}
    (h : Option.Rel R b b') (values : ∀ {c c'}, R c c' → Below (f c) (f c')) :
    Below ((b.map f).getD 0.0) ((b'.map f).getD 0.0) := by
  cases h with
  | some h => exact values h
  | none => exact .zero

theorem Below.sum {xs xs' : List ℝ} (h : List.Forall₂ Below xs xs') : Below xs.sum xs'.sum := by
  induction h with
  | nil => exact ⟨le_rfl, le_rfl⟩
  | cons first _ ih => 
    rw [List.sum_cons, List.sum_cons]
    exact first.add ih

theorem Below.withImports {damping damping' own own' imported imported' : ℝ} (nonneg : 0 ≤ damping)
    (le : damping ≤ damping') (ho : Below own own') (hi : Below imported imported') (count : ℕ) :
    Below (withImports damping own imported count) (withImports damping' own' imported' count) := by
  have share : Below (damping * imported) (damping' * imported') := by
    constructor
    · calc damping * imported ≤ damping * imported' := mul_le_mul_of_nonneg_left hi.le nonneg
        _ ≤ damping' * imported' := mul_le_mul_of_nonneg_right le hi.nonneg
    · exact mul_nonneg (nonneg.trans le) hi.nonneg
  have root : 0 ≤ SquareRoot.squareRoot (count : ℝ) := Real.sqrt_nonneg _
  unfold Graph.withImports
  split
  · exact ho
  · exact ho.add ⟨div_le_div_of_nonneg_right share.le root, div_nonneg share.nonneg root⟩

theorem ResultBelow.ownScore {r r' : Result ℝ} (h : ResultBelow r r') :
    Below (ownScore r) (ownScore r') := by
  rw [ownScore_eq, ownScore_eq]
  refine h.score.add (Below.sum ?_)
  rw [List.forall₂_map_left_iff, List.forall₂_map_right_iff]
  exact h.parts

theorem ModuleBelow.fileScore {m m' : Module ℝ} (h : ModuleBelow m m') :
    Below (fileScore m) (fileScore m') :=
  Below.getD_map h.result ResultBelow.score

/-! ### Totals -/

theorem TotalsBelow.note {t t' : Totals ℝ} (h : TotalsBelow t t') (e e' : Event ℝ) :
    TotalsBelow (t.note e) (t'.note e') := h

theorem TotalsBelow.record {t t' : Totals ℝ} (h : TotalsBelow t t') (path : String) {x x' : ℝ}
    (value : Below x x') : TotalsBelow (t.record path x) (t'.record path x') := by
  intro p
  rw [get?_record, get?_record]
  split
  · exact .some value
  · exact h p

/-! ### Two computations in step -/

variable {modules modules' : List (Module ℝ)} {settings settings' : Settings ℝ}

theorem paths_eq_of_below (below : List.Forall₂ ModuleBelow modules modules') :
    modules.map Module.path = modules'.map Module.path := by
  induction below with
  | nil => rfl
  | cons first _ ih => rw [List.map_cons, List.map_cons, first.path, ih]

theorem find?_below (below : List.Forall₂ ModuleBelow modules modules') (p : String) :
    Option.Rel ModuleBelow (find? modules p) (find? modules' p) := by
  unfold find?
  have reversed := List.rel_reverse below
  generalize modules.reverse = ms, modules'.reverse = ms' at reversed ⊢
  induction reversed with
  | nil => exact .none
  | @cons m m' _ _ first _ ih =>
    rw [List.find?_cons, List.find?_cons, first.path]
    split
    · exact .some first
    · exact ih

theorem fileScore_find?_below (below : List.Forall₂ ModuleBelow modules modules') (p : String) :
    Below (((find? modules p).map fileScore).getD 0.0)
      (((find? modules' p).map fileScore).getD 0.0) :=
  Below.getD_map (find?_below below p) ModuleBelow.fileScore

section

variable {waiting : List String} {share share' : Module ℝ → Totals ℝ → ℝ × Totals ℝ}

theorem addShare_below (below : List.Forall₂ ModuleBelow modules modules')
    (shares : ∀ {m m' t t'}, m.path ∈ modules.map Module.path → ModuleBelow m m' →
      TotalsBelow t t' → ReadingBelow (share m t) (share' m' t'))
    {sofar sofar' : ℝ × Totals ℝ} (h : ReadingBelow sofar sofar') (d : String) :
    ReadingBelow (addShare modules waiting share sofar d)
      (addShare modules' waiting share' sofar' d) := by
  unfold addShare
  obtain ⟨unlisted, unlisted'⟩ | ⟨m, m', record, record', hm⟩ := rel_cases (find?_below below d)
  · rw [unlisted, unlisted']
    exact h
  · rw [record, record']
    dsimp only
    split
    · exact h
    · have listed := List.mem_map_of_mem (f := Module.path) (find?_path record).1
      have read := shares listed hm h.totals
      exact ⟨h.value.add read.value, read.totals⟩

variable (waiting) in
theorem importedTotal_below (below : List.Forall₂ ModuleBelow modules modules')
    (shares : ∀ {m m' t t'}, m.path ∈ modules.map Module.path → ModuleBelow m m' →
      TotalsBelow t t' → ReadingBelow (share m t) (share' m' t'))
    (imports : List String) {t t' : Totals ℝ} (h : TotalsBelow t t') :
    ReadingBelow (importedTotal modules waiting share imports t)
      (importedTotal modules' waiting share' imports t') := by
  have steps (imports : List String) {sofar sofar' : ℝ × Totals ℝ}
      (h : ReadingBelow sofar sofar') :
      ReadingBelow (imports.foldl (addShare modules waiting share) sofar)
        (imports.foldl (addShare modules' waiting share') sofar') := by
    induction imports generalizing sofar sofar' with
    | nil => exact h
    | cons d imports ih => exact ih (addShare_below below shares h d)
  exact steps imports ⟨.zero, h⟩

end

section

variable (below : List.Forall₂ ModuleBelow modules modules')
    (ceiling : settings.moduleCeiling = settings'.moduleCeiling) (nonneg : 0 ≤ settings.damping)
    (le : settings.damping ≤ settings'.damping)
include below ceiling nonneg le

/-- Whatever waits and whatever is known, the total of a module is below that of the module above
it, and so is what is known when they have been computed. -/
theorem total_below (waiting : List String) {m m' : Module ℝ} (hm : ModuleBelow m m')
    (listed : m.path ∈ modules.map Module.path) {t t' : Totals ℝ} (h : TotalsBelow t t') :
    ReadingBelow (total modules settings waiting m t) (total modules' settings' waiting m' t') := by
  have paths := paths_eq_of_below below
  -- both computations pass the same exits, so one induction on what does not wait serves them both
  induction more : (notWaiting modules waiting).length using Nat.strong_induction_on
    generalizing waiting m m' t t' with
  | _ size ih =>
    have first := fileScore_find?_below below m.path
    have listed' : m'.path ∈ modules'.map Module.path := paths ▸ hm.path ▸ listed
    cases deep : exceeds settings.moduleCeiling waiting.length with
    | true =>
      rw [total_of_exceeds deep, total_of_exceeds (ceiling ▸ deep), ← hm.path]
      exact ⟨Below.getD (h m.path) first, h.note _ _⟩
    | false =>
      have deep' : exceeds settings'.moduleCeiling waiting.length = false := ceiling ▸ deep
      obtain ⟨unscored, unscored'⟩ | ⟨r, r', scored, scored', hr⟩ := rel_cases hm.result
      · rw [total_of_unscored deep unscored, total_of_unscored deep' unscored']
        exact ⟨.zero, h⟩
      obtain ⟨unknown, unknown'⟩ | ⟨x, x', known, known', hx⟩ := rel_cases (h m.path)
      · rw [hm.path] at unknown'
        by_cases waits : m.path ∈ waiting
        · rw [total_of_waiting deep scored unknown waits,
            total_of_waiting deep' scored' unknown' (hm.path ▸ waits), ← hm.path]
          exact ⟨first, h⟩
        · have fewer : (notWaiting modules (m.path :: waiting)).length < size :=
            more ▸ length_notWaiting_lt listed waits
          have imported := importedTotal_below (m.path :: waiting) below
            (fun {d d' u u'} hd below known => ih _ fewer (m.path :: waiting) below hd known rfl)
            m.dependencies h
          rw [total_of_unknown deep scored unknown waits listed,
            total_of_unknown deep' scored' unknown' (hm.path ▸ waits) listed', ← hm.path,
            ← hm.dependencies]
          have own := Below.withImports nonneg le hr.ownScore imported.value m.dependencies.length
          exact ⟨own, imported.totals.record m.path own⟩
      · rw [total_of_known deep scored known, total_of_known deep' scored' (hm.path ▸ known')]
        exact ⟨hx, h⟩

theorem computeTotal_below {m m' : Module ℝ} (hm : ModuleBelow m m')
    (listed : m.path ∈ modules.map Module.path) {t t' : Totals ℝ} (h : TotalsBelow t t') :
    TotalsBelow (computeTotal modules settings t m) (computeTotal modules' settings' t' m') := by
  unfold computeTotal
  rw [← hm.path]
  obtain ⟨unknown, unknown'⟩ | ⟨_, _, known, known', -⟩ := rel_cases (h m.path)
  · rw [unknown, unknown']
    exact (total_below below ceiling nonneg le [] hm listed h).totals
  · rw [known, known']
    exact h

theorem computeTotals_below :
    TotalsBelow (computeTotals modules settings) (computeTotals modules' settings') := by
  have steps {rest rest' : List (Module ℝ)} (h : List.Forall₂ ModuleBelow rest rest')
      (listed : rest ⊆ modules) {t t' : Totals ℝ} (totals : TotalsBelow t t') :
      TotalsBelow (rest.foldl (computeTotal modules settings) t)
        (rest'.foldl (computeTotal modules' settings') t') := by
    induction h generalizing t t' with
    | nil => exact totals
    | cons hm _ ih =>
      have member := List.mem_map_of_mem (f := Module.path) (listed List.mem_cons_self)
      exact ih (List.subset_of_cons_subset listed)
        (computeTotal_below below ceiling nonneg le hm member totals)
  exact steps (List.rel_reverse below) (fun m => List.mem_reverse.1) fun _ => .none

end

/-- In exact numbers, higher scores and a higher damping never lower a total, as long as neither the
higher scores nor the lower damping is negative: where two lists have the same modules but for the
scores, in whatever order and with whatever cycles, each module has a total in both, and that among
the lower scores is at most the other one. -/
theorem totals_le_of_below {modules modules' : List (Module ℝ)} {settings settings' : Settings ℝ}
    (below : List.Forall₂ ModuleBelow modules modules')
    (ceiling : settings.moduleCeiling = settings'.moduleCeiling) (nonneg : 0 ≤ settings.damping)
    (le : settings.damping ≤ settings'.damping) :
    ∀ m ∈ modules, ∃ x x', (totalsByPath modules settings).lookup m.path = some x
      ∧ (totalsByPath modules' settings').lookup m.path = some x' ∧ x ≤ x' := by
  intro m member
  have listed := List.mem_map_of_mem (f := Module.path) member
  have listed' := paths_eq_of_below below ▸ listed
  refine ⟨_, _, lookup_totalsByPath_of_mem settings listed,
    lookup_totalsByPath_of_mem settings' listed', ?_⟩
  exact (Below.getD (computeTotals_below below ceiling nonneg le m.path) .zero).le

/-- A module above two others, of which the first imports the second, and one without a result. -/
noncomputable def stacked (low high : ℝ) : List (Module ℝ) :=
  [⟨"top", ["left", "right", "x"],
      some ⟨"program", high, none, [], [⟨"string", low, none, [], []⟩]⟩⟩,
    ⟨"bare", ["left"], none⟩, ⟨"left", ["right"], some ⟨"program", low, none, [], []⟩⟩,
    ⟨"right", [], some ⟨"program", high, none, [], []⟩⟩]

/-- The lower scores may be negative. -/
theorem totals_le_of_below_stacked :
    List.Forall₂ ModuleBelow (stacked (-1) 2) (stacked 0 3)
    ∧ (0 : ℝ) ≤ (Settings.default (α := ℝ)).damping ∧ (Settings.default (α := ℝ)).damping ≤ 0.75
    ∧ ∀ m ∈ stacked (-1) 2, ∃ x x',
      (totalsByPath (stacked (-1) 2) Settings.default).lookup m.path = some x
        ∧ (totalsByPath (stacked 0 3) { Settings.default with damping := 0.75 }).lookup m.path
          = some x'
        ∧ x ≤ x' := by
  have low : Below (-1) 0 := by constructor <;> norm_num
  have high : Below 2 3 := by constructor <;> norm_num
  have below : List.Forall₂ ModuleBelow (stacked (-1) 2) (stacked 0 3) :=
    .cons ⟨rfl, rfl, .some ⟨high, .cons low .nil⟩⟩ <| .cons ⟨rfl, rfl, .none⟩ <|
      .cons ⟨rfl, rfl, .some ⟨low, .nil⟩⟩ <| .cons ⟨rfl, rfl, .some ⟨high, .nil⟩⟩ .nil
  have nonneg : (0 : ℝ) ≤ (Settings.default (α := ℝ)).damping := by norm_num [Settings.default]
  have le : (Settings.default (α := ℝ)).damping ≤ 0.75 := by norm_num [Settings.default]
  exact ⟨below, nonneg, le, totals_le_of_below below rfl nonneg le⟩

end ComplexityMeter.Graph
