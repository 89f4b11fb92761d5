import ComplexityMeter.Proofs.Config.Precedence
import ComplexityMeter.Proofs.Order

/-!
# Configurations in range

What a field demands of its value is checked by asking whether the value fails it. That refuses
every single value that does not keep the demand but one: a NaN fails no bound and keeps none.
-/

namespace ComplexityMeter.Config

open Syntax (Language)

namespace Demand

/-- The values that a demand is meant to let through. -/
def IsKept : Demand → Datum → Prop
  | .atLeastOne, v => ∃ x, v.number? = some x ∧ .int 1 ≤ x
  | .notNegative, v => ∃ x, v.number? = some x ∧ .int 0 ≤ x
  | .knownLanguage, v => ∃ language : Language, v = .text language.name
  | .bareFileName, v => ∃ s, v = .text s ∧ s ≠ "" ∧ '/' ∉ s.toList

/-- The values that pass without keeping the demand: a NaN under a bound, and as a file name a
collection with members of which none is a slash. -/
def IsOverlooked : Demand → Datum → Prop
  | .atLeastOne, v | .notNegative, v => ∃ x, v = .number x ∧ x.isNaN = true
  | .knownLanguage, _ => False
  | .bareFileName, .list items => items ≠ [] ∧ .text "/" ∉ items
  | .bareFileName, .table entries => entries ≠ [] ∧ "/" ∉ entries.map Prod.fst
  | .bareFileName, _ => False

variable {v : Datum} {bound : Int}

theorem isBelow_eq_false_iff (given : v.IsGiven) : isBelow bound v = .ok false
    ↔ (∃ x, v.number? = some x ∧ .int bound ≤ x) ∨ ∃ x, v = .number x ∧ x.isNaN = true := by
  cases v with
  | number x =>
    have order : ¬ x < .int bound ↔ _ := Number.not_lt_int_iff (given x rfl)
    simpa [isBelow, Value.number?] using order
  | truth b =>
    simp [isBelow, Value.number?, Number.int_le_int_iff]
  | _ => simp [isBelow, Value.number?]

theorem isLanguage_iff : isLanguage v = true ↔ ∃ language : Language, v = .text language.name := by
  constructor
  · intro known
    cases v with
    | text s =>
      obtain ⟨language, found⟩ := Option.isSome_iff_exists.1 known
      rw [Language.ofName?] at found
      have named : language.name = s := by simpa using List.find?_some found
      exact ⟨language, by rw [named]⟩
    | _ => cases known
  · rintro ⟨language, rfl⟩
    rw [isLanguage, Language.ofName?_name]
    rfl

theorem holdsSlash_list {items : List Datum} :
    holdsSlash (.list items) = .ok false ↔ .text "/" ∉ items := by
  rw [holdsSlash, Except.ok.injEq, List.any_eq_false]
  constructor
  · exact fun none known => none _ known rfl
  · intro none item known
    split
    · simpa using fun same : _ = "/" => none (same ▸ known)
    · exact Bool.false_ne_true

theorem holdsSlash_table {entries : Entries Datum} :
    holdsSlash (.table entries) = .ok false ↔ "/" ∉ entries.map Prod.fst := by
  rw [holdsSlash, Except.ok.injEq, ← Entries.get?_eq_none_iff, Option.isSome_eq_false_iff,
    Option.isNone_iff_eq_none]

theorem bareFileName_isMet_iff :
    isMet .bareFileName v = .ok true ↔ v.isTruthy = true ∧ holdsSlash v = .ok false := by
  rw [isMet]
  cases v.isTruthy <;> cases holdsSlash v <;> simp [Except.map]

/-- A check lets through what keeps the demand, and what is overlooked. -/
theorem isMet_eq_true_iff (demand : Demand) (given : v.IsGiven) :
    demand.isMet v = .ok true ↔ demand.IsKept v ∨ demand.IsOverlooked v := by
  have negated (answer : Except Misuse Bool) :
      answer.map (!·) = .ok true ↔ answer = .ok false := by
    cases answer <;> simp [Except.map]
  cases demand with
  | atLeastOne => exact (negated _).trans (isBelow_eq_false_iff given)
  | notNegative => exact (negated _).trans (isBelow_eq_false_iff given)
  | knownLanguage =>
    rw [isMet, Except.ok.injEq, isLanguage_iff]
    exact (or_iff_left id).symm
  | bareFileName =>
    rw [bareFileName_isMet_iff]
    cases v with
    | text s => simp [holdsSlash, Value.isTruthy, IsKept, IsOverlooked]
    | list items => simp [holdsSlash_list, Value.isTruthy, IsKept, IsOverlooked]
    | table entries => simp [holdsSlash_table, Value.isTruthy, IsKept, IsOverlooked]
    | _ => simp [holdsSlash, IsKept, IsOverlooked]

theorem not_isKept_of_isOverlooked (demand : Demand) (overlooked : demand.IsOverlooked v) :
    ¬ demand.IsKept v := by
  have below {least : Int} : (∃ x, v = .number x ∧ x.isNaN = true) →
      ¬ ∃ x, v.number? = some x ∧ .int least ≤ x := by
    rintro ⟨x, rfl, nan⟩ ⟨y, number, above⟩
    obtain rfl := Option.some.inj number
    exact Number.not_int_le_of_isNaN nan least above
  cases demand with
  | atLeastOne => exact below overlooked
  | notNegative => exact below overlooked
  | knownLanguage => exact overlooked.elim
  | bareFileName =>
    rintro ⟨s, rfl, -⟩
    exact overlooked.elim

end Demand

/-- A value of a configuration keeps what its field demands, or is overlooked. -/
def InRange (f : Field) (v : Datum) : Prop :=
  f.demand.IsKept v ∨ f.demand.IsOverlooked v

theorem InRange.isKept_iff {f : Field} {v : Datum} (h : InRange f v) :
    f.demand.IsKept v ↔ ¬ f.demand.IsOverlooked v :=
  ⟨fun kept overlooked => f.demand.not_isKept_of_isOverlooked overlooked kept, h.resolve_right⟩

theorem isGiven_default (f : Field) : f.default.IsGiven := by
  cases f with
  | language | defaultFile => exact Value.isGiven_of_number?_eq_none rfl
  | _ => exact Value.isGiven_number rfl

theorem check_eq_ok_iff {f : Field} {v : Datum} (given : v.IsGiven) :
    f.check v = .ok () ↔ InRange f v := by
  rw [InRange, ← Demand.isMet_eq_true_iff f.demand given]
  refine ⟨Demand.isMet_of_check, fun met => ?_⟩
  rw [Field.check, met]

theorem isGiven_valueIn {fields : Entries Datum} (given : ∀ entry ∈ fields, entry.2.IsGiven)
    (f : Field) : (valueIn fields f).IsGiven := by
  rw [valueIn.eq_def]
  cases own : Entries.get? f.name fields with
  | none => exact isGiven_default f
  | some v => exact given _ (Entries.mem_of_get?_eq_some own)

/-- Given values are accepted when their names are known and all fields are in range, and then they
are what the configuration holds. -/
theorem ofEntries_eq_ok_iff_inRange {fields : Entries Datum} {weights : Option WeightsGiven}
    {c : Config} (given : ∀ entry ∈ fields, entry.2.IsGiven) :
    ofEntries fields weights = .ok c
      ↔ (∀ name ∈ fields.map Prod.fst, name ∈ fieldNames) ∧ (∀ f, InRange f (valueIn fields f))
        ∧ c = ⟨valueIn fields, weights.getD default.weights⟩ := by
  have values : checkValues (valueIn fields) = .ok () ↔ ∀ f, InRange f (valueIn fields f) := by
    rw [checkValues, List.forM_eq_forM, forM_eq_ok_iff]
    have checked (f : Field) : f.check (valueIn fields f) = .ok () ↔ InRange f (valueIn fields f) :=
      check_eq_ok_iff (isGiven_valueIn given f)
    exact ⟨fun passed f => (checked f).1 (passed f f.mem_checkOrder),
      fun kept f _ => (checked f).2 (kept f)⟩
  rw [ofEntries_eq_ok_iff, checkNames_eq_ok_iff, values]

/-! ### Values of sources -/

theorem isGiven_variableValue {f : Field} {text : String} {v : Datum}
    (h : variableValue f text = .ok v) : v.IsGiven := by
  unfold variableValue at h
  split at h
  · obtain rfl := Except.ok.inj h
    exact Value.isGiven_of_number?_eq_none rfl
  · split at h
    · obtain rfl := Except.ok.inj h
      exact Value.isGiven_number rfl
    · cases h
  · split at h
    · obtain rfl := Except.ok.inj h
      exact Value.isGiven_number rfl
    · cases h

section

variable {s : Surroundings} {explicit : Option String} {overrides : Layer} {c : Config}

theorem isGiven_of_layer? (given : ∀ entry ∈ overrides.fields, entry.2.IsGiven) {source : Source}
    {layer : Layer} (own : source.layer? s explicit overrides = some layer) :
    ∀ entry ∈ layer.fields, entry.2.IsGiven := by
  have ofFile {found : Option Found} (h : (found.bind tableIn?).map Layer.ofTable = some layer) :
      ∀ entry ∈ layer.fields, entry.2.IsGiven := by
    obtain ⟨table, holds, rfl⟩ := Option.map_eq_some_iff.1 h
    obtain ⟨_, -, read⟩ := Option.bind_eq_some_iff.1 holds
    exact fun entry known => (isProper_tableIn? read).given entry (List.mem_of_mem_filter known)
  cases source with
  | overrides => exact Option.some.inj own ▸ given
  | environment =>
    obtain rfl := Option.some.inj own
    intro entry known
    obtain ⟨f, -, set⟩ := List.mem_filterMap.1 known
    obtain ⟨v, read, rfl⟩ := Option.map_eq_some_iff.1 set
    obtain ⟨text, -, parsed⟩ := Option.bind_eq_some_iff.1 read
    cases value : variableValue f text with
    | error e => simp [value, Except.toOption] at parsed
    | ok v' =>
      obtain rfl : v' = v := by simpa [value, Except.toOption] using parsed
      exact isGiven_variableValue value
  | explicit | project | home => exact ofFile own

theorem inRange_of_load (given : ∀ entry ∈ overrides.fields, entry.2.IsGiven)
    (loaded : load s explicit overrides = .ok c) (f : Field) : InRange f (c.value f) := by
  obtain ⟨ls, weights, stacked, -, built⟩ := load_eq_ok loaded
  have stackGiven : ∀ entry ∈ (Layer.stack ls).fields, entry.2.IsGiven := by
    intro entry known
    obtain ⟨layer, below, own⟩ := Layer.mem_fields_stack known
    obtain rfl | ⟨source, layered⟩ := layer_of_mem stacked below
    · cases own
    · exact isGiven_of_layer? given layered entry own
  obtain ⟨-, kept, rfl⟩ := (ofEntries_eq_ok_iff_inRange stackGiven).1 built
  exact kept f

end

/-- A configuration is made of given values when their names are known and every field is in range,
and then it holds these values. Whether it is made of them or loaded with them over other sources,
each of its values keeps what its field demands, a bound, a known language or a bare file name,
unless the value is one of those that the check overlooks. -/
theorem accepted_in_range {given : Layer} (numbers : ∀ entry ∈ given.fields, entry.2.IsGiven) :
    (∀ weights c, ofEntries given.fields weights = .ok c
      ↔ (∀ name ∈ given.fields.map Prod.fst, name ∈ fieldNames)
        ∧ (∀ f, InRange f (valueIn given.fields f))
        ∧ c = ⟨valueIn given.fields, weights.getD default.weights⟩)
    ∧ ∀ c, ((∃ weights, ofEntries given.fields weights = .ok c)
          ∨ ∃ s explicit, load s explicit given = .ok c) →
        ∀ f : Field, f.demand.IsKept (c.value f) ↔ ¬ f.demand.IsOverlooked (c.value f) := by
  refine ⟨fun _ _ => ofEntries_eq_ok_iff_inRange numbers, fun c accepted f => ?_⟩
  obtain ⟨weights, built⟩ | ⟨s, explicit, loaded⟩ := accepted
  · obtain ⟨-, kept, rfl⟩ := (ofEntries_eq_ok_iff_inRange numbers).1 built
    exact (kept f).isKept_iff
  · exact (inRange_of_load numbers loaded f).isKept_iff

theorem accepted_in_range_threeSources :
    (∀ entry ∈ twoEntries.fields, entry.2.IsGiven)
    ∧ (∃ c, load threeSources none twoEntries = .ok c
        ∧ ∀ f : Field, f.demand.IsKept (c.value f) ↔ ¬ f.demand.IsOverlooked (c.value f))
    ∧ ¬ ∃ c, ofEntries [("summary_top_n", .number (.int 0))] none = .ok c := by
  have numbers (n : Int) :
      ∀ entry ∈ [("summary_top_n", Value.number (Number.int n))], entry.2.IsGiven := by
    intro entry known
    obtain rfl := List.mem_singleton.1 known
    exact Value.isGiven_number rfl
  refine ⟨numbers 2, ?_, ?_⟩
  · obtain ⟨c, loaded⟩ := exists_load_threeSources
    have accepted := @accepted_in_range twoEntries (numbers 2)
    exact ⟨c, loaded, accepted.2 c (.inr ⟨threeSources, none, loaded⟩)⟩
  · rintro ⟨c, built⟩
    have accepted := @accepted_in_range ⟨[("summary_top_n", .number (.int 0))], none⟩ (numbers 0)
    obtain ⟨-, kept, -⟩ := (accepted.1 none c).1 built
    obtain ⟨x, number, least⟩ | ⟨x, number, nan⟩ := kept .topCount
    · obtain rfl := Option.some.inj number
      exact absurd (Number.int_le_int_iff.1 least) (by decide)
    · obtain rfl := Value.number.inj number
      cases nan

/-- A depth that a file gives as a NaN is accepted, although it is not at least one. -/
theorem notInRange_nan :
    ∃ c, load (projectOf "max_depth = nan\n" []) none .empty = .ok c
      ∧ ¬ Demand.atLeastOne.IsKept (c.value .maxDepth) := by
  obtain ⟨c, loaded⟩ : ∃ c, load (projectOf "max_depth = nan\n" []) none .empty = .ok c :=
    exists_ok_of_isOk (by decide +kernel)
  have above : (c.value .maxDepth).number?.all fun x => !decide (Number.int 1 ≤ x) := by
    have distinct : Layer.empty.IsDistinct := List.nodup_nil
    rw [value_of_load distinct loaded]
    decide +kernel
  refine ⟨c, loaded, ?_⟩
  rintro ⟨x, number, least⟩
  simp [number, least] at above

end ComplexityMeter.Config
