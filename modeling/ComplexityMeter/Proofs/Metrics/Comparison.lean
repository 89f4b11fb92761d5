import ComplexityMeter.Config.Weighing
import ComplexityMeter.Proofs.Exact
import ComplexityMeter.Proofs.Order
import ComplexityMeter.Proofs.Runs

/-!
# Comparison as an order of snippets

The verdict on two snippets compares one number of each, and each number comes from its snippet
alone. Where numbers are ordered by value, the verdicts are therefore those of a total preorder:
being simpler is its strict part, and snippets of which neither is simpler are its ties.
-/

namespace ComplexityMeter.Metrics

open Syntax (Parser)

variable {α : Type} [Scalar α] {P : α → Prop}

/-! ### Verdicts on numbers -/

namespace Verdict

variable {a b : α}

theorem ofScalars_eq_first_iff : ofScalars a b = .first ↔ a < b := by
  unfold ofScalars
  split_ifs <;> simp_all

theorem ofScalars_eq_neither_iff : ofScalars a b = .neither ↔ ¬ a < b ∧ ¬ b < a := by
  unfold ofScalars
  split_ifs <;> simp_all

theorem ofScalars_flipped (order : Scalar.Ordered P) (ha : P a) (hb : P b) :
    ofScalars b a = (ofScalars a b).flipped := by
  have exclusive : a < b → ¬ b < a := order.asymm ha hb
  unfold ofScalars
  split_ifs <;> simp_all [flipped]

end Verdict

/-! ### Comparisons of records -/

def Comparison.exchanged (c : Comparison α) : Comparison α :=
  { first := c.second
    second := c.first
    firstScalar := c.secondScalar
    secondScalar := c.firstScalar
    verdict := c.verdict.flipped }

variable {weights : Weights α}

theorem compare_exchanged (order : Scalar.Ordered P) {m n : Record α} (hm : P (scalar weights m))
    (hn : P (scalar weights n)) : compare weights n m = (compare weights m n).exchanged := by
  simp only [compare, Comparison.exchanged, Verdict.ofScalars_flipped order hm hn]

theorem scalar_eq_sum_breakdown (weights : Weights α) (m : Record α) :
    scalar weights m = Scalar.sum ((breakdown weights m).map BreakdownLine.weighted) := by
  rw [scalar, breakdown, List.map_map]
  rfl

/-! ### Comparisons of snippets -/

section

variable (P) (parser : Parser) (settings : Settings α) (weights)

/-- A snippet parses, and the number that its metrics are reduced to is of the ordered kind. -/
def IsMeasured (code : String) (m : Record α) : Prop :=
  measureCode parser settings settings.language.name Score.Context.unnamed code = .ok m
    ∧ P (scalar weights m)

/-- Two snippets are compared, with this verdict. -/
def Judged (verdict : Verdict) (first second : String) : Prop :=
  ∃ c, compareCode parser settings weights first second = .ok c ∧ c.verdict = verdict

end

variable {parser : Parser} {settings : Settings α} {a b c : String} {m n : Record α}

theorem compareCode_eq_ok (ha : IsMeasured P weights parser settings a m)
    (hb : IsMeasured P weights parser settings b n) :
    compareCode parser settings weights a b = .ok (compare weights m n) := by
  simp only [compareCode, ha.1, hb.1]
  rfl

theorem judged_iff (ha : IsMeasured P weights parser settings a m)
    (hb : IsMeasured P weights parser settings b n) {verdict : Verdict} :
    Judged weights parser settings verdict a b
      ↔ Verdict.ofScalars (scalar weights m) (scalar weights n) = verdict := by
  rw [Judged, compareCode_eq_ok ha hb]
  constructor
  · rintro ⟨c, result, same⟩
    obtain rfl := Except.ok.inj result
    exact same
  · exact fun same => ⟨_, rfl, same⟩

/-- Where numbers are ordered by value, snippets that parse are compared in both orders, with
exchanged sides and flipped verdicts, from what each of them measures alone. Being simpler is
transitive, and to be as complex is an equivalence that being simpler respects. And the number of
every record is the sum of its weighted breakdown. -/
theorem snippets_totally_preordered (order : Scalar.Ordered P) (parser : Parser)
    (settings : Settings α) (weights : Weights α) :
    (∀ {a b m n}, IsMeasured P weights parser settings a m →
      IsMeasured P weights parser settings b n →
        ∃ c, compareCode parser settings weights a b = .ok c
          ∧ compareCode parser settings weights b a = .ok c.exchanged
          ∧ c.first = m ∧ c.second = n
          ∧ c.firstScalar = scalar weights m ∧ c.secondScalar = scalar weights n)
    ∧ (∀ {a b c : String}, (∀ code ∈ [a, b, c], ∃ m, IsMeasured P weights parser settings code m) →
        let Simpler := Judged weights parser settings .first
        let Tied := Judged weights parser settings .neither
        (Simpler a b ∨ Tied a b ∨ Simpler b a)
        ∧ (Simpler a b → Simpler b c → Simpler a c)
        ∧ Tied a a
        ∧ (Tied a b → Tied b a)
        ∧ (Tied a b → Tied b c → Tied a c)
        ∧ (Tied a b → Simpler b c → Simpler a c)
        ∧ (Simpler a b → Tied b c → Simpler a c))
    ∧ ∀ m, scalar weights m = Scalar.sum ((breakdown weights m).map BreakdownLine.weighted) := by
  refine ⟨fun {a b m n} ha hb => ?_, fun {a b c} measured => ?_, scalar_eq_sum_breakdown weights⟩
  · refine ⟨compare weights m n, compareCode_eq_ok ha hb, ?_, rfl, rfl, rfl, rfl⟩
    rw [compareCode_eq_ok hb ha, compare_exchanged order ha.2 hb.2]
  · obtain ⟨m, ha⟩ := measured a (by simp)
    obtain ⟨n, hb⟩ := measured b (by simp)
    obtain ⟨o, hc⟩ := measured c (by simp)
    simp only [judged_iff ha ha, judged_iff ha hb, judged_iff hb ha, judged_iff hb hc,
      judged_iff ha hc, Verdict.ofScalars_eq_first_iff, Verdict.ofScalars_eq_neither_iff]
    refine ⟨?_, order.trans ha.2 hb.2 hc.2, ?_, And.symm, ?_, ?_, ?_⟩
    · by_cases below : scalar weights m < scalar weights n
      · exact .inl below
      · by_cases above : scalar weights n < scalar weights m
        · exact .inr (.inr above)
        · exact .inr (.inl ⟨below, above⟩)
    · exact ⟨order.irrefl _ ha.2, order.irrefl _ ha.2⟩
    · exact fun first second => ⟨order.not_lt_trans ha.2 hb.2 hc.2 first.1 second.1,
        order.not_lt_trans hc.2 hb.2 ha.2 second.2 first.2⟩
    · exact fun tie below => order.lt_of_tie_of_lt ha.2 hb.2 hc.2 tie.2 below
    · exact fun below tie => order.lt_of_lt_of_tie ha.2 hb.2 hc.2 below tie.2

/-- Reads every character of a text as an assignment. -/
def tallyParser : Parser := fun _ code =>
  let assignment : Syntax.Node :=
    ⟨"assignment_expression", true, false, false, none, "", 0, 0, 0, []⟩
  ⟨"program", true, false, false, none, code, 0, 0, 0, code.toList.map fun _ => assignment⟩

def tally (code : String) : Record Number :=
  measureTree Settings.default
    ⟨tallyParser .typescript code, Score.Context.unnamed, .typescript⟩

theorem snippets_totally_preordered_tally :
    Scalar.Ordered Number.IsOrderedDouble
    ∧ Judged Weights.default tallyParser (Settings.default (α := Number)) .first "a" "bb"
    ∧ Judged Weights.default tallyParser (Settings.default (α := Number)) .neither "bb" "cc"
    ∧ Judged Weights.default tallyParser (Settings.default (α := Number)) .first "a" "cc"
    ∧ ∃ c, compareCode tallyParser Settings.default Weights.default "bb" "a" = .ok c
        ∧ c.verdict = .second ∧ c.secondScalar = scalar Weights.default (tally "a") := by
  have measured (code : String)
      (ordered : Number.IsOrderedDouble (scalar Weights.default (tally code))) :
      IsMeasured Number.IsOrderedDouble Weights.default tallyParser Settings.default code
        (tally code) :=
    ⟨rfl, ordered⟩
  have one := measured "a" (by decide +kernel)
  have two := measured "bb" (by decide +kernel)
  have other := measured "cc" (by decide +kernel)
  obtain ⟨exchange, relations, -⟩ := snippets_totally_preordered Number.ordered_doubles
    tallyParser Settings.default Weights.default
  obtain ⟨-, -, -, -, -, -, respects⟩ := relations (a := "a") (b := "bb") (c := "cc")
    (by simpa using ⟨⟨_, one⟩, ⟨_, two⟩, _, other⟩)
  have below : Judged Weights.default tallyParser Settings.default .first "a" "bb" :=
    (judged_iff one two).2 (by decide +kernel)
  have tie : Judged Weights.default tallyParser Settings.default .neither "bb" "cc" :=
    (judged_iff two other).2 (by decide +kernel)
  obtain ⟨c, forward, backward, -, -, first, -⟩ := exchange one two
  have judged : c.verdict = .first := by
    obtain ⟨c', forward', judged⟩ := below
    rw [Except.ok.inj (forward.symm.trans forward'), judged]
  exact ⟨Number.ordered_doubles, below, tie, respects below tie, c.exchanged, backward,
    by rw [Comparison.exchanged, judged]; rfl, first⟩

end ComplexityMeter.Metrics
