import ComplexityMeter.Config.Record
import ComplexityMeter.Proofs.Runs

/-!
# Accepted configurations

A configuration is accepted only when the value of every field meets what the field demands. The
settings that an analysis reads off it are then in range.
-/

namespace ComplexityMeter.Config

open Score (Ceiling)

variable {fields : Entries Datum} {weights : Option WeightsGiven} {c : Config}

theorem ofEntries_eq_ok_iff : ofEntries fields weights = .ok c
    ↔ checkNames fields = .ok () ∧ checkValues (valueIn fields) = .ok ()
      ∧ c = ⟨valueIn fields, weights.getD default.weights⟩ := by
  simp only [ofEntries, bind_eq_ok_iff]
  constructor
  · rintro ⟨_, names, _, values, built⟩
    exact ⟨names, values, (Except.ok.inj built).symm⟩
  · rintro ⟨names, values, rfl⟩
    exact ⟨(), names, (), values, rfl⟩

theorem checkNames_eq_ok_iff :
    checkNames fields = .ok () ↔ ∀ name ∈ fields.map Prod.fst, name ∈ fieldNames := by
  rw [checkNames]
  split
  case h_1 name value found =>
    have known := List.mem_of_find?_eq_some found
    have notField := List.find?_some found
    simp only [Bool.not_eq_true', List.contains_eq_mem, decide_eq_false_iff_not] at notField
    exact ⟨nofun, fun all => absurd (all name (List.mem_map_of_mem known)) notField⟩
  case h_2 none =>
    simpa using none

theorem check_of_accepted (accepted : ofEntries fields weights = .ok c) (f : Field) :
    f.check (c.value f) = .ok () := by
  obtain ⟨-, values, rfl⟩ := ofEntries_eq_ok_iff.1 accepted
  rw [checkValues, List.forM_eq_forM] at values
  exact forM_eq_ok_iff.1 values f f.mem_checkOrder

theorem Demand.isMet_of_check {f : Field} {value : Datum} (passed : f.check value = .ok ()) :
    f.demand.isMet value = .ok true := by
  rw [Field.check] at passed
  split at passed
  case h_1 met => exact met
  case h_2 => cases passed
  case h_3 => cases passed

theorem exists_number_of_isBelow {value : Datum} {bound : Int} {b : Bool}
    (h : Demand.isBelow bound value = .ok b) : ∃ x, value.number? = some x := by
  cases value with
  | number x => exact ⟨x, rfl⟩
  | truth t => exact ⟨_, rfl⟩
  | _ => cases h

theorem isBelow_of_lt {value : Datum} {limit bound : Int}
    (number : value.number? = some (.int limit)) (below : limit < bound) :
    Demand.isBelow bound value = .ok true := by
  cases value with
  | number x =>
    obtain rfl := Option.some.inj number
    have order : compare limit bound = .lt := Int.compare_eq_lt.2 below
    have less : (Number.int limit).isLess (.int bound) = true := by
      simp [Number.isLess, Number.compare?, order]
    exact congrArg Except.ok (decide_eq_true less)
  | truth b =>
    have limit_eq : (if b then 1 else 0) = limit := Number.int.inj (Option.some.inj number)
    rw [Demand.isBelow, limit_eq, decide_eq_true below]
  | _ => cases number

/-- Trees are scored at least one level deep. -/
theorem one_le_maxDepth (accepted : ofEntries fields weights = .ok c) {limit : Int}
    (number : c.numberOf .maxDepth = .int limit) : 1 ≤ limit := by
  have met : (Demand.isBelow 1 (c.value .maxDepth)).map (!·) = .ok true :=
    Demand.isMet_of_check (check_of_accepted accepted .maxDepth)
  cases below : Demand.isBelow 1 (c.value .maxDepth) with
  | error cause => simp [below, Except.map] at met
  | ok b =>
    obtain rfl : b = false := by simpa [below, Except.map] using met
    obtain ⟨x, value⟩ := exists_number_of_isBelow below
    obtain rfl : x = .int limit := by simpa [numberOf, value] using number
    by_contra least
    have other := isBelow_of_lt value (Int.not_le.1 least)
    rw [below] at other
    cases other

theorem ceiling_settings {limit : Int} (number : c.numberOf .maxDepth = .int limit) :
    c.settings.ceiling = .level limit := by
  rw [settings, number]
  rfl

end ComplexityMeter.Config
