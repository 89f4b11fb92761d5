import ComplexityMeter.Proofs.Exact
import ComplexityMeter.Proofs.Graph.Recurrence

/-!
# Totals of a list in any order

On a list that is not in order the computation meets modules above their imports, in cycles, and at
depths where only what is known is read. Whatever it meets, it does three things to the totals: it
leaves them alone, notes that the depth ceiling was reached, or records the total of a module that
has none and waits for no other. So no total is recorded twice and none is lost, and in exact numbers
a total is never less than what the module scores without its imports.
-/

namespace ComplexityMeter.Graph

open Score (Result)

variable {α : Type} [Scalar α] [SquareRoot α] {modules : List (Module α)} {settings : Settings α}
  {waiting : List String} {t u : Totals α}

/-! ### What a computation does to totals -/

/-- What may be read for an import: nothing, the score of a file, or a total that is known. -/
def IsShare (modules : List (Module α)) (t : Totals α) (x : α) : Prop :=
  x = 0.0 ∨ (∃ m ∈ modules, x = fileScore m) ∨ ∃ p, t.get? p = some x

/-- The second totals come of the first while the modules in `waiting` wait. -/
inductive Proceeds (modules : List (Module α)) (settings : Settings α) (waiting : List String)
    (t : Totals α) : Totals α → Prop
  | refl : Proceeds modules settings waiting t t
  | note {u : Totals α} (path : String) (run : Proceeds modules settings waiting t u) :
    Proceeds modules settings waiting t (u.note (.moduleCutOff path))
  | record {u : Totals α} {m : Module α} {result : Result α} {shares : List α}
      (run : Proceeds modules settings waiting t u) (listed : m ∈ modules)
      (scored : m.result = some result) (unknown : u.get? m.path = none) (free : m.path ∉ waiting)
      (shared : ∀ x ∈ shares, IsShare modules u x) :
    Proceeds modules settings waiting t
      (u.record m.path (withImports settings.damping (ownScore result) (shares.foldl (· + ·) 0.0)
        m.dependencies.length))

omit [Scalar α] [SquareRoot α] in
@[simp] theorem get?_note (t : Totals α) (e : Event α) (p : String) : (t.note e).get? p = t.get? p :=
  rfl

omit [Scalar α] [SquareRoot α] in
theorem get?_record (t : Totals α) (path p : String) (x : α) :
    (t.record path x).get? p = if p = path then some x else t.get? p := by
  by_cases h : p = path
  · simp [Totals.get?, Totals.record, h]
  · simp [Totals.get?, Totals.record, List.lookup_cons, beq_eq_false_iff_ne.2 h, h]

namespace Proceeds

theorem trans {v : Totals α} (first : Proceeds modules settings waiting t u)
    (second : Proceeds modules settings waiting u v) : Proceeds modules settings waiting t v := by
  induction second with
  | refl => exact first
  | note path _ ih => exact .note path ih
  | record _ listed scored unknown free shared ih =>
    exact .record ih listed scored unknown free shared

theorem of_more {more : List String} (run : Proceeds modules settings more t u)
    (subset : waiting ⊆ more) : Proceeds modules settings waiting t u := by
  induction run with
  | refl => exact .refl
  | note path _ ih => exact .note path ih
  | record _ listed scored unknown free shared ih =>
    exact .record ih listed scored unknown (fun waits => free (subset waits)) shared

theorem keeps (run : Proceeds modules settings waiting t u) {p : String} {x : α}
    (known : t.get? p = some x) : u.get? p = some x := by
  induction run with
  | refl => exact known
  | note _ _ ih => exact ih
  | @record u m _ _ _ _ _ unknown _ _ ih =>
    have hne : p ≠ m.path := by
      rintro rfl
      rw [unknown] at ih
      cases ih
    rw [get?_record, if_neg hne]
    exact ih

theorem get?_of_waiting (run : Proceeds modules settings waiting t u) {p : String}
    (waits : p ∈ waiting) : u.get? p = t.get? p := by
  induction run with
  | refl => rfl
  | note _ _ ih => exact ih
  | record _ _ _ _ free _ ih =>
    rw [get?_record, if_neg (by rintro rfl; exact free waits)]
    exact ih

theorem isShare (run : Proceeds modules settings waiting t u) {x : α} (h : IsShare modules t x) :
    IsShare modules u x := by
  rcases h with zero | file | ⟨p, known⟩
  · exact .inl zero
  · exact .inr (.inl file)
  · exact .inr (.inr ⟨p, run.keeps known⟩)

end Proceeds

omit [SquareRoot α] in
theorem isShare_fileScore (modules : List (Module α)) (t : Totals α) (p : String) :
    IsShare modules t (((find? modules p).map fileScore).getD 0.0) := by
  cases record : find? modules p with
  | none => exact .inl rfl
  | some m => exact .inr (.inl ⟨m, (find?_path record).1, rfl⟩)

/-- The sum of the shares of imports is one of what may be read, if each share is. -/
theorem importedTotal_proceeds {share : Module α → Totals α → α × Totals α}
    (h : ∀ m ∈ modules, ∀ t, Proceeds modules settings waiting t (share m t).2
      ∧ IsShare modules (share m t).2 (share m t).1)
    (imports : List String) (t : Totals α) :
    Proceeds modules settings waiting t (importedTotal modules waiting share imports t).2
      ∧ ∃ shares : List α, (importedTotal modules waiting share imports t).1
          = shares.foldl (· + ·) 0.0
        ∧ ∀ x ∈ shares, IsShare modules (importedTotal modules waiting share imports t).2 x := by
  induction imports using List.reverseRecOn with
  | nil => exact ⟨.refl, [], rfl, by simp⟩
  | append_singleton imports d ih =>
    obtain ⟨run, shares, sum, shared⟩ := ih
    rw [importedTotal, List.foldl_append, List.foldl_cons, List.foldl_nil, ← importedTotal]
    generalize importedTotal modules waiting share imports t = sofar at run sum shared ⊢
    rw [addShare]
    cases record : find? modules d with
    | none => exact ⟨run, shares, sum, shared⟩
    | some m =>
      dsimp only
      split
      · exact ⟨run, shares, sum, shared⟩
      · obtain ⟨further, isShare⟩ := h m (find?_path record).1 sofar.2
        refine ⟨run.trans further, shares ++ [(share m sofar.2).1], ?_, ?_⟩
        · rw [List.foldl_append, ← sum]
          rfl
        · intro x hx
          rcases List.mem_append.1 hx with hx | hx
          · exact further.isShare (shared x hx)
          · obtain rfl := List.mem_singleton.1 hx
            exact isShare

/-- A total that is computed is recorded, after what its imports have led to. -/
theorem total_records {m : Module α} {result : Result α} (listed : m ∈ modules)
    (shallow : exceeds settings.moduleCeiling waiting.length = false)
    (scored : m.result = some result) (unknown : t.get? m.path = none) (free : m.path ∉ waiting)
    (below : ∀ d ∈ modules, ∀ t : Totals α,
      Proceeds modules settings (m.path :: waiting) t
          (total modules settings (m.path :: waiting) d t).2
        ∧ IsShare modules (total modules settings (m.path :: waiting) d t).2
          (total modules settings (m.path :: waiting) d t).1) :
    Proceeds modules settings waiting t (total modules settings waiting m t).2
      ∧ (total modules settings waiting m t).2.get? m.path
        = some (total modules settings waiting m t).1 := by
  obtain ⟨run, shares, sum, shared⟩ := importedTotal_proceeds below m.dependencies t
  rw [total_of_unknown shallow scored unknown free (List.mem_map_of_mem listed)]
  dsimp only
  generalize importedTotal modules (m.path :: waiting)
    (total modules settings (m.path :: waiting)) m.dependencies t = imported at run sum shared ⊢
  have unknown : imported.2.get? m.path = none :=
    (run.get?_of_waiting List.mem_cons_self).trans unknown
  rw [sum]
  constructor
  · exact .record (run.of_more (List.subset_cons_self _ _)) listed scored unknown free shared
  · rw [get?_record, if_pos rfl]

/-- Whatever waits and whatever is known, computing a total proceeds from what is known, and gives
what may be read for an import. A module with a result that waits for nothing has its total then. -/
theorem total_proceeds (settings : Settings α) (waiting : List String) {m : Module α}
    (listed : m ∈ modules) (t : Totals α) :
    Proceeds modules settings waiting t (total modules settings waiting m t).2
      ∧ IsShare modules (total modules settings waiting m t).2 (total modules settings waiting m t).1
      ∧ (exceeds settings.moduleCeiling waiting.length = false → m.path ∉ waiting →
          m.result.isSome → ((total modules settings waiting m t).2.get? m.path).isSome) := by
  induction more : (notWaiting modules waiting).length using Nat.strong_induction_on
    generalizing waiting m t with
  | _ size ih =>
    cases deep : exceeds settings.moduleCeiling waiting.length with
    | true =>
      rw [total_of_exceeds deep]
      refine ⟨.note m.path .refl, ?_, by simp⟩
      cases known : t.get? m.path with
      | none => exact isShare_fileScore modules _ m.path
      | some x => exact .inr (.inr ⟨m.path, known⟩)
    | false =>
      cases scored : m.result with
      | none =>
        rw [total_of_unscored deep scored]
        exact ⟨.refl, .inl rfl, by simp⟩
      | some result =>
        cases known : t.get? m.path with
        | some x =>
          rw [total_of_known deep scored known]
          exact ⟨.refl, .inr (.inr ⟨m.path, known⟩), by simp [known]⟩
        | none =>
          by_cases waits : m.path ∈ waiting
          · rw [total_of_waiting deep scored known waits]
            exact ⟨.refl, isShare_fileScore modules t m.path, by simp [waits]⟩
          · have fewer : (notWaiting modules (m.path :: waiting)).length < size :=
              more ▸ length_notWaiting_lt (List.mem_map_of_mem listed) waits
            obtain ⟨run, recorded⟩ := total_records listed deep scored known waits
              fun d hd t => ⟨(ih _ fewer (m.path :: waiting) hd t rfl).1,
                (ih _ fewer (m.path :: waiting) hd t rfl).2.1⟩
            exact ⟨run, .inr (.inr ⟨m.path, recorded⟩), by simp [recorded]⟩

/-! ### All modules of a list -/

theorem computeTotal_proceeds (settings : Settings α) {m : Module α} (listed : m ∈ modules)
    (t : Totals α) :
    Proceeds modules settings [] t (computeTotal modules settings t m)
      ∧ (exceeds settings.moduleCeiling 0 = false → m.result.isSome →
          ((computeTotal modules settings t m).get? m.path).isSome) := by
  rw [computeTotal]
  cases known : t.get? m.path with
  | some x => exact ⟨.refl, by simp [known]⟩
  | none =>
    obtain ⟨run, -, complete⟩ := total_proceeds settings [] listed t
    exact ⟨run, fun ceiling => complete ceiling List.not_mem_nil⟩

theorem foldl_computeTotal_proceeds (ceiling : exceeds settings.moduleCeiling 0 = false)
    {rest : List (Module α)} (listed : rest ⊆ modules) (t : Totals α) :
    Proceeds modules settings [] t (rest.foldl (computeTotal modules settings) t)
      ∧ ∀ m ∈ rest, m.result.isSome →
          ((rest.foldl (computeTotal modules settings) t).get? m.path).isSome := by
  induction rest generalizing t with
  | nil => exact ⟨.refl, by simp⟩
  | cons m rest ih =>
    obtain ⟨step, complete⟩ := computeTotal_proceeds settings (listed List.mem_cons_self) t
    obtain ⟨run, others⟩ := ih (List.subset_of_cons_subset listed) (computeTotal modules settings t m)
    rw [List.foldl_cons]
    refine ⟨step.trans run, List.forall_mem_cons.2 ⟨fun scored => ?_, others⟩⟩
    obtain ⟨x, known⟩ := Option.isSome_iff_exists.1 (complete ceiling scored)
    rw [run.keeps known]
    rfl

variable (modules) in
theorem computeTotals_proceeds (ceiling : exceeds settings.moduleCeiling 0 = false) :
    Proceeds modules settings [] ⟨[], []⟩ (computeTotals modules settings)
      ∧ ∀ m ∈ modules, m.result.isSome → ((computeTotals modules settings).get? m.path).isSome := by
  have listed : modules.reverse ⊆ modules := fun m => List.mem_reverse.1
  obtain ⟨run, complete⟩ := foldl_computeTotal_proceeds ceiling listed ⟨[], []⟩
  exact ⟨run, fun m hm => complete m (List.mem_reverse.2 hm)⟩

/-- The totals that events give a path. -/
def notedTotals (events : List (Event α)) (path : String) : List α :=
  events.filterMap fun e =>
    match e with
    | .aggregated p x => if p = path then some x else none
    | _ => none

/-- Every total is noted once, and only modules with a result have one. -/
structure Sound (modules : List (Module α)) (t : Totals α) : Prop where
  noted : ∀ p, notedTotals t.events p = (t.get? p).toList
  scored : ∀ p, (t.get? p).isSome → ∃ m ∈ modules, m.path = p ∧ m.result.isSome

theorem Proceeds.sound (run : Proceeds modules settings waiting t u) (sound : Sound modules t) :
    Sound modules u := by
  induction run with
  | refl => exact sound
  | note path _ ih =>
    refine ⟨fun p => ?_, ih.scored⟩
    rw [get?_note, ← ih.noted p]
    simp [notedTotals, Totals.note]
  | @record u m result shares _ listed scored unknown _ _ ih =>
    constructor
    · intro p
      have before := ih.noted p
      rw [get?_record]
      by_cases h : p = m.path
      · subst h
        rw [unknown] at before
        simpa [notedTotals, Totals.record] using before
      · simpa [notedTotals, Totals.record, h, Ne.symm h] using before
    · intro p known
      rw [get?_record] at known
      by_cases h : p = m.path
      · exact ⟨m, listed, h.symm, by rw [scored]; rfl⟩
      · rw [if_neg h] at known
        exact ih.scored p known

variable (modules) in
theorem sound_computeTotals (ceiling : exceeds settings.moduleCeiling 0 = false) :
    Sound modules (computeTotals modules settings) :=
  (computeTotals_proceeds modules ceiling).1.sound ⟨fun _ => rfl, fun _ known => by cases known⟩

/-- The totals of a list are complete: every module has one, and those with a result got it once. -/
structure Completed (modules : List (Module α)) (settings : Settings α) : Prop where
  paths : (totalsByPath modules settings).map Prod.fst = modules.map Module.path
  once : ∀ m ∈ modules, m.result.isSome → ∃ x,
    notedTotals (computeTotals modules settings).events m.path = [x]
      ∧ (totalsByPath modules settings).lookup m.path = some x
  unscored : ∀ m ∈ modules, m.result = none →
    notedTotals (computeTotals modules settings).events m.path = []
      ∧ (totalsByPath modules settings).lookup m.path = some 0.0
  others : ∀ p, p ∉ modules.map Module.path →
    notedTotals (computeTotals modules settings).events p = []

theorem lookup_totalsByPath (distinct : (modules.map Module.path).Nodup) {m : Module α}
    (listed : m ∈ modules) : (totalsByPath modules settings).lookup m.path
      = some (((computeTotals modules settings).get? m.path).getD 0.0) := by
  rw [totalsByPath, eraseDups_of_nodup distinct, lookup_graph,
    if_pos (List.mem_map_of_mem listed)]
  rfl

theorem completed (ceiling : exceeds settings.moduleCeiling 0 = false)
    (distinct : (modules.map Module.path).Nodup) : Completed modules settings := by
  have sound := sound_computeTotals modules ceiling
  constructor
  case paths => simp [totalsByPath, eraseDups_of_nodup distinct, Function.comp_def]
  case once =>
    intro m listed scored
    obtain ⟨x, known⟩ := Option.isSome_iff_exists.1
      ((computeTotals_proceeds modules ceiling).2 m listed scored)
    refine ⟨x, ?_, ?_⟩
    · rw [sound.noted, known]
      rfl
    · rw [lookup_totalsByPath distinct listed, known]
      rfl
  case unscored =>
    intro m listed unscored
    have unknown : (computeTotals modules settings).get? m.path = none := by
      by_contra known
      obtain ⟨other, other_listed, same, scored⟩ :=
        sound.scored m.path (Option.isSome_iff_ne_none.2 known)
      rw [List.inj_on_of_nodup_map distinct other_listed listed same, unscored] at scored
      cases scored
    refine ⟨?_, ?_⟩
    · rw [sound.noted, unknown]
      rfl
    · rw [lookup_totalsByPath distinct listed, unknown]
      rfl
  case others =>
    intro p unlisted
    have unknown : (computeTotals modules settings).get? p = none := by
      by_contra known
      obtain ⟨m, listed, rfl, -⟩ := sound.scored p (Option.isSome_iff_ne_none.2 known)
      exact unlisted (List.mem_map_of_mem listed)
    rw [sound.noted, unknown]
    rfl

/-! ### Totals in exact numbers -/

section Exact

variable {modules : List (Module ℝ)} {settings : Settings ℝ} {waiting : List String}
  {t u : Totals ℝ}

/-- No score of a module is negative, neither that of its file nor that of a direct part. -/
def NonnegScores (modules : List (Module ℝ)) : Prop :=
  ∀ m ∈ modules, ∀ r, m.result = some r → 0 ≤ r.score ∧ ∀ c ∈ r.parts, 0 ≤ c.score

theorem ownScore_eq (r : Result ℝ) : ownScore r = r.score + (r.parts.map Result.score).sum := by
  rw [ownScore, Scalar.sum_real]

theorem ownScore_nonneg (nonneg : NonnegScores modules) {m : Module ℝ} (listed : m ∈ modules)
    {r : Result ℝ} (scored : m.result = some r) : 0 ≤ ownScore r := by
  obtain ⟨score, parts⟩ := nonneg m listed r scored
  rw [ownScore_eq]
  exact add_nonneg score (List.sum_nonneg (by simpa using parts))

theorem fileScore_nonneg (nonneg : NonnegScores modules) {m : Module ℝ} (listed : m ∈ modules) :
    0 ≤ fileScore m := by
  rw [fileScore]
  cases scored : m.result with
  | none => norm_num
  | some r => exact (nonneg m listed r scored).1

theorem ownScore_le_withImports {damping imported : ℝ} (hd : 0 ≤ damping) (hi : 0 ≤ imported)
    (own : ℝ) (count : Nat) : own ≤ withImports damping own imported count := by
  rw [withImports]
  split
  · exact le_rfl
  · exact le_add_of_nonneg_right (div_nonneg (mul_nonneg hd hi) (Real.sqrt_nonneg _))

/-- No known total is negative, and none is less than what its module scores without its imports. -/
structure Bounded (modules : List (Module ℝ)) (t : Totals ℝ) : Prop where
  nonneg : ∀ p x, t.get? p = some x → 0 ≤ x
  least : ∀ m ∈ modules, ∀ r, m.result = some r → ∀ x, t.get? m.path = some x → ownScore r ≤ x

theorem IsShare.nonneg (scores : NonnegScores modules) (bounded : Bounded modules t) {x : ℝ}
    (h : IsShare modules t x) : 0 ≤ x := by
  rcases h with rfl | ⟨m, listed, rfl⟩ | ⟨p, known⟩
  · norm_num
  · exact fileScore_nonneg scores listed
  · exact bounded.nonneg p x known

theorem Proceeds.bounded (run : Proceeds modules settings waiting t u)
    (distinct : (modules.map Module.path).Nodup) (damping : 0 ≤ settings.damping)
    (scores : NonnegScores modules) (bounded : Bounded modules t) : Bounded modules u := by
  induction run with
  | refl => exact bounded
  | note _ _ ih => exact ⟨ih.nonneg, ih.least⟩
  | @record u m result shares _ listed scored unknown _ shared ih =>
    have imported : 0 ≤ shares.foldl (· + ·) (0.0 : ℝ) := by
      have sum : shares.foldl (· + ·) (0.0 : ℝ) = shares.sum := by
        rw [List.sum_eq_foldl]
        norm_num
      rw [sum]
      exact List.sum_nonneg fun x hx => (shared x hx).nonneg scores ih
    have own := ownScore_le_withImports damping imported (ownScore result) m.dependencies.length
    constructor
    · intro p x known
      rw [get?_record] at known
      split at known
      · obtain rfl := Option.some.inj known
        exact (ownScore_nonneg scores listed scored).trans own
      · exact ih.nonneg p x known
    · intro other other_listed r other_scored x known
      rw [get?_record] at known
      split at known
      · rename_i same
        obtain rfl := List.inj_on_of_nodup_map distinct other_listed listed same
        obtain rfl := Option.some.inj (scored.symm.trans other_scored)
        obtain rfl := Option.some.inj known
        exact own
      · exact ih.least other other_listed r other_scored x known

end Exact

/-- Totals of a list in any order and with any cycles are complete, below every ceiling that admits
the modules of the list: each module with a result gets its total once, each other one has the total
zero. In exact numbers, where no score and no damping is negative, a total is at least the score of
the file and of its direct parts. -/
theorem totals_complete :
    (∀ {α : Type} [Scalar α] [SquareRoot α] (modules : List (Module α)) (settings : Settings α),
      (modules.map Module.path).Nodup →
      (∀ bound, settings.moduleCeiling = .level bound → 0 ≤ bound) → Completed modules settings)
    ∧ (∀ (modules : List (Module ℝ)) (settings : Settings ℝ), (modules.map Module.path).Nodup →
      (∀ bound, settings.moduleCeiling = .level bound → 0 ≤ bound) → 0 ≤ settings.damping →
      NonnegScores modules → ∀ m ∈ modules, ∀ r, m.result = some r →
        ∃ x, (totalsByPath modules settings).lookup m.path = some x
          ∧ r.score + (r.parts.map Result.score).sum ≤ x)
    ∧ ∀ path total, (Event.aggregated path total).text
        = "Module " ++ path ++ ": aggregate complexity " ++ total.fixed 2 := by
  refine ⟨?_, ?_, fun _ _ => rfl⟩
  · intro α _ _ modules settings distinct admits
    exact completed (not_exceeds_zero admits) distinct
  · intro modules settings distinct admits damping scores m listed r scored
    obtain ⟨run, complete⟩ := computeTotals_proceeds modules (not_exceeds_zero admits)
    have start : Bounded modules ⟨[], []⟩ :=
      ⟨fun _ _ known => (nomatch known), fun _ _ _ _ _ known => (nomatch known)⟩
    have bounded := run.bounded distinct damping scores start
    obtain ⟨x, known⟩ := Option.isSome_iff_exists.1 (complete m listed (by rw [scored]; rfl))
    refine ⟨x, ?_, ?_⟩
    · rw [lookup_totalsByPath distinct listed, known]
      rfl
    · rw [← ownScore_eq]
      exact bounded.least m listed r scored x known

/-- Modules that import each other and themselves, with what they import before or behind them; one
has no result. -/
def knotted {α : Type} [Scalar α] : List (Module α) :=
  [⟨"b", ["c", "a", "c"], some ⟨"program", 2.0, none, [], []⟩⟩, ⟨"c", ["b"], none⟩,
    ⟨"a", ["a", "b", "b", "x"],
      some ⟨"program", 4.0, none, [], [⟨"string", 1.0, none, [], []⟩]⟩⟩]

theorem totals_complete_knotted :
    ((knotted (α := Number)).map Module.path).Nodup
    ∧ Completed (α := Number) knotted { Settings.default with moduleCeiling := .level 1 }
    ∧ NonnegScores knotted
    ∧ ∃ x, (totalsByPath (α := ℝ) knotted Settings.default).lookup "a" = some x ∧ 4.0 + 1.0 ≤ x := by
  have distinct {α : Type} [Scalar α] : ((knotted (α := α)).map Module.path).Nodup := by
    simp [knotted]
  have nonneg : NonnegScores knotted := by
    intro m listed r scored
    simp only [knotted, List.mem_cons, List.not_mem_nil, or_false] at listed
    rcases listed with rfl | rfl | rfl <;> cases scored <;> norm_num
  refine ⟨distinct, totals_complete.1 knotted _ distinct ?admits, nonneg, ?least⟩
  case admits =>
    intro bound h
    cases h
    decide
  case least =>
    have admits : ∀ bound, (Settings.default (α := ℝ)).moduleCeiling = .level bound → 0 ≤ bound := by
      intro bound h
      cases h
      decide
    have damping : 0 ≤ (Settings.default (α := ℝ)).damping := by norm_num [Settings.default]
    obtain ⟨x, known, least⟩ := totals_complete.2.1 knotted Settings.default distinct admits damping
      nonneg _ (List.mem_of_getElem? (i := 2) rfl) _ rfl
    exact ⟨x, known, by simpa using least⟩

end ComplexityMeter.Graph
