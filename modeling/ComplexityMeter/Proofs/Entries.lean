import Mathlib.Data.List.Nodup
import ComplexityMeter.Value

/-!
# Entries by name

Setting an entry makes its name known and leaves the others alone. Of two collections that are
united the later one decides, name by name.
-/

namespace ComplexityMeter.Entries

variable {β : Type} {entries later : Entries β} {name other : String} {value : β}

theorem mem_of_mem_set {entry : String × β} (h : entry ∈ entries.set name value) :
    entry = (name, value) ∨ entry ∈ entries := by
  induction entries with
  | nil => exact .inl (by simpa [set] using h)
  | cons first rest ih =>
    rw [set] at h
    split_ifs at h with same
    · obtain rfl | later := List.mem_cons.1 h
      · exact .inl (by rw [same])
      · exact .inr (List.mem_cons_of_mem _ later)
    · obtain rfl | later := List.mem_cons.1 h
      · exact .inr List.mem_cons_self
      · exact (ih later).imp_right (List.mem_cons_of_mem _)

theorem names_set : (entries.set name value).map Prod.fst
    = if name ∈ entries.map Prod.fst then entries.map Prod.fst
      else entries.map Prod.fst ++ [name] := by
  induction entries with
  | nil => rfl
  | cons first rest ih =>
    by_cases same : first.1 = name
    · simp [set, same]
    · by_cases known : name ∈ rest.map Prod.fst <;>
        simp_all [set, Ne.symm same]

theorem mem_names_set : other ∈ (entries.set name value).map Prod.fst
    ↔ other ∈ entries.map Prod.fst ∨ other = name := by
  rw [names_set]
  split_ifs with known
  · exact ⟨.inl, fun h => h.elim id fun same => same ▸ known⟩
  · rw [List.mem_append, List.mem_singleton]

theorem get?_eq_none_iff : entries.get? name = none ↔ name ∉ entries.map Prod.fst := by
  induction entries with
  | nil => simp [get?]
  | cons first rest ih =>
    obtain ⟨key, old⟩ := first
    by_cases same : name = key
    · simp [get?, same]
    · simpa [get?, List.lookup_cons, beq_eq_false_iff_ne.2 same, same] using ih

theorem mem_of_get?_eq_some (h : entries.get? name = some value) : (name, value) ∈ entries := by
  induction entries with
  | nil => cases h
  | cons first rest ih =>
    obtain ⟨key, old⟩ := first
    by_cases same : name = key
    · obtain rfl : old = value := by simpa [get?, same] using h
      exact same ▸ List.mem_cons_self
    · exact List.mem_cons_of_mem _
        (ih (by simpa [get?, List.lookup_cons, beq_eq_false_iff_ne.2 same] using h))

theorem get?_erase_of_ne (different : other ≠ name) :
    (entries.erase name).get? other = entries.get? other := by
  induction entries with
  | nil => rfl
  | cons first rest ih =>
    obtain ⟨key, old⟩ := first
    simp only [get?, erase] at ih ⊢
    by_cases removed : key = name
    · subst removed
      simp [ih, List.lookup_cons, beq_eq_false_iff_ne.2 different]
    · simp [removed, List.lookup_cons, ih]

theorem mem_names_erase :
    other ∈ (entries.erase name).map Prod.fst ↔ other ∈ entries.map Prod.fst ∧ other ≠ name := by
  simp only [erase, List.mem_map, List.mem_filter, bne_iff_ne]
  constructor
  · rintro ⟨entry, ⟨known, kept⟩, rfl⟩
    exact ⟨⟨entry, known, rfl⟩, kept⟩
  · rintro ⟨⟨entry, known, rfl⟩, kept⟩
    exact ⟨entry, ⟨known, kept⟩, rfl⟩

theorem nodup_names_erase (distinct : (entries.map Prod.fst).Nodup) :
    ((entries.erase name).map Prod.fst).Nodup :=
  distinct.sublist (List.filter_sublist.map Prod.fst)

theorem update_nil : entries.update [] = entries :=
  rfl

theorem update_cons (entry : String × β) :
    entries.update (entry :: later) = (entries.set entry.1 entry.2).update later :=
  rfl

/-- Later entries with distinct names hide earlier ones. -/
theorem get?_update (distinct : (later.map Prod.fst).Nodup) :
    (entries.update later).get? name = (later.get? name).or (entries.get? name) := by
  induction later generalizing entries with
  | nil => rfl
  | cons first rest ih =>
    obtain ⟨key, value⟩ := first
    obtain ⟨fresh, distinct⟩ := List.nodup_cons.1 distinct
    rw [update_cons, ih distinct, get?_set]
    by_cases same : name = key
    · subst same
      rw [get?_eq_none_iff.2 fresh]
      simp [get?]
    · simp [get?, List.lookup_cons, beq_eq_false_iff_ne.2 same, same]

theorem mem_names_update : name ∈ (entries.update later).map Prod.fst
    ↔ name ∈ entries.map Prod.fst ∨ name ∈ later.map Prod.fst := by
  induction later generalizing entries with
  | nil => simp [update_nil]
  | cons first rest ih =>
    rw [update_cons, ih, mem_names_set, List.map_cons, List.mem_cons, or_assoc]

theorem mem_of_mem_update {entry : String × β} (h : entry ∈ entries.update later) :
    entry ∈ entries ∨ entry ∈ later := by
  induction later generalizing entries with
  | nil => exact .inl h
  | cons first rest ih =>
    obtain set | after := ih (update_cons first ▸ h)
    · obtain rfl | before := mem_of_mem_set set
      · exact .inr List.mem_cons_self
      · exact .inl before
    · exact .inr (List.mem_cons_of_mem _ after)

end ComplexityMeter.Entries
