import ComplexityMeter.Proofs.Entries
import ComplexityMeter.Toml.Document

/-!
# Tables as they are read

A table that comes from a document names every entry once, and a number in it is a number: no
reading computes anything that could outgrow the doubles.
-/

namespace ComplexityMeter

/-- A value that stands for a number stands for one that is there. -/
def Value.IsGiven (v : Datum) : Prop :=
  ∀ x, v.number? = some x → x.hasValue = true

namespace Value

theorem isGiven_number {x : Number} (h : x.hasValue = true) : IsGiven (.number x) := by
  rintro _ ⟨⟩
  exact h

theorem isGiven_truth (b : Bool) : IsGiven (.truth b) := by
  rintro _ ⟨⟩
  rfl

theorem isGiven_of_number?_eq_none {v : Datum} (h : v.number? = none) : v.IsGiven := by
  intro x found
  rw [h] at found
  cases found

end Value

/-- Names stand once, and numbers are there. -/
structure Entries.IsProper (entries : Entries Datum) : Prop where
  distinct : (entries.map Prod.fst).Nodup
  given : ∀ entry ∈ entries, entry.2.IsGiven

theorem Entries.IsProper.nil : Entries.IsProper [] :=
  ⟨List.nodup_nil, by simp⟩

theorem Entries.IsProper.set {entries : Entries Datum} (proper : entries.IsProper) (name : String)
    {value : Datum} (given : value.IsGiven) : (Entries.set name value entries).IsProper where
  distinct := by
    rw [names_set]
    split_ifs with known
    · exact proper.distinct
    · rw [← List.concat_eq_append]
      exact proper.distinct.concat known
  given entry h := by
    obtain rfl | old := mem_of_mem_set h
    · exact given
    · exact proper.given entry old

namespace Toml

open Value

/-! ### Values -/

variable {cs after : List Char}

theorem eq_of_read {β : Type} {x y : β} {rest : List Char}
    (h : some (x, rest) = some (y, after)) : x = y :=
  congrArg Prod.fst (Option.some.inj h)

theorem hasValue_of_numberInBase {base : Nat} {x : Number}
    (h : numberInBase base cs = some (x, after)) : x.hasValue = true := by
  obtain ⟨⟨digits, rest⟩, -, same⟩ := Option.map_eq_some_iff.1 h
  obtain ⟨rfl, -⟩ := Prod.mk.inj same
  rfl

theorem hasValue_of_decimalNumber {x : Number} (h : decimalNumber cs = some (x, after)) :
    x.hasValue = true := by
  simp only [decimalNumber] at h
  split at h
  · cases h
  · split_ifs at h <;> obtain rfl := eq_of_read h <;> rfl

theorem hasValue_of_namedNumber {x : Number} (h : namedNumber cs = some (x, after)) :
    x.hasValue = true := by
  simp only [namedNumber] at h
  split at h
  · obtain rfl := eq_of_read h
    rfl
  · obtain rfl := eq_of_read h
    rfl
  · cases h

theorem hasValue_of_number {x : Number} (h : number cs = some (x, after)) : x.hasValue = true := by
  simp only [number, Option.or_eq_some_iff] at h
  obtain (based | ⟨-, decimal⟩) | ⟨-, named⟩ := h
  · split at based
    · exact hasValue_of_numberInBase based
    · exact hasValue_of_numberInBase based
    · exact hasValue_of_numberInBase based
    · cases based
  · exact hasValue_of_decimalNumber decimal
  · exact hasValue_of_namedNumber named

theorem isGiven_of_map {β : Type} {build : β → Datum} {read : Option (β × List Char)} {v : Datum}
    (given : ∀ b rest, read = some (b, rest) → (build b).IsGiven)
    (h : (read.map fun x => (build x.1, x.2)) = some (v, after)) : v.IsGiven := by
  obtain ⟨⟨b, rest⟩, found, same⟩ := Option.map_eq_some_iff.1 h
  obtain ⟨rfl, -⟩ := Prod.mk.inj same
  exact given b rest found

theorem isGiven_of_value {v : Datum} (h : value cs = some (v, after)) : v.IsGiven := by
  rw [value, valueWithin.eq_def] at h
  split at h
  · cases h
  · split at h
    case h_1 | h_2 => exact isGiven_of_map (fun _ _ _ => isGiven_of_number?_eq_none rfl) h
    case h_3 | h_4 =>
      obtain rfl := eq_of_read h
      exact isGiven_truth _
    case h_5 =>
      split at h
      · obtain rfl := eq_of_read h
        exact isGiven_of_number?_eq_none rfl
      · exact isGiven_of_map (fun _ _ _ => isGiven_of_number?_eq_none rfl) h
      · cases h
    case h_6 =>
      split at h
      · obtain rfl := eq_of_read h
        exact isGiven_of_number?_eq_none rfl
      · exact isGiven_of_map (fun _ _ _ => isGiven_of_number?_eq_none rfl) h
    case h_7 =>
      split at h
      · obtain rfl := eq_of_read h
        exact isGiven_of_number?_eq_none rfl
      · cases h
      · exact isGiven_of_map (fun x _ found => isGiven_number (hasValue_of_number found)) h

/-! ### Documents -/

/-- A change at a place keeps a table proper when it keeps the tables proper that it is made in. -/
theorem isProper_changeAt {throughLists : Bool}
    {change : Entries Datum → Option (Entries Datum)}
    (keeps : ∀ {before later}, change before = some later → before.IsProper → later.IsProper)
    {place : Place} {entries entries' : Entries Datum}
    (changed : changeAt throughLists change place entries = some entries')
    (proper : entries.IsProper) : entries'.IsProper := by
  cases place with
  | nil => exact keeps changed proper
  | cons name place =>
    rw [changeAt] at changed
    split at changed
    · obtain ⟨inner, -, rfl⟩ := Option.map_eq_some_iff.1 changed
      exact proper.set name (isGiven_of_number?_eq_none rfl)
    · obtain ⟨inner, -, rfl⟩ := Option.map_eq_some_iff.1 changed
      exact proper.set name (isGiven_of_number?_eq_none rfl)
    · split at changed
      · obtain ⟨inner, -, rfl⟩ := Option.map_eq_some_iff.1 changed
        exact proper.set name (isGiven_of_number?_eq_none rfl)
      · cases changed
    · cases changed

theorem isProper_addEntry {throughLists : Bool} {place : Place} {name : String} {v : Datum}
    {entries entries' : Entries Datum}
    (added : addEntry throughLists place name v entries = some entries') (given : v.IsGiven)
    (proper : entries.IsProper) : entries'.IsProper := by
  refine isProper_changeAt (fun change before => ?_) added proper
  split_ifs at change
  obtain rfl := Option.some.inj change
  exact before.set name given

theorem isProper_openTable {place : Place} {entries entries' : Entries Datum}
    (opened : openTable place entries = some entries') (proper : entries.IsProper) :
    entries'.IsProper :=
  isProper_changeAt (fun same before => Option.some.inj same ▸ before) opened proper

theorem isProper_appendTable {place : Place} {name : String} {entries entries' : Entries Datum}
    (appended : appendTable place name entries = some entries') (proper : entries.IsProper) :
    entries'.IsProper := by
  refine isProper_changeAt (fun change before => ?_) appended proper
  split at change
  · obtain rfl := Option.some.inj change
    exact before.set name (isGiven_of_number?_eq_none rfl)
  · obtain rfl := Option.some.inj change
    exact before.set name (isGiven_of_number?_eq_none rfl)
  · cases change

namespace Draft

variable {d d' : Draft} {cs after : List Char}

theorem isProper_addPair {place : Place} {v : Datum} (added : d.addPair place v = some d')
    (given : v.IsGiven) (proper : d.entries.IsProper) : d'.entries.IsProper := by
  simp only [addPair] at added
  split at added
  · cases added
  · obtain ⟨entries, entry, rfl⟩ := Option.map_eq_some_iff.1 added
    exact isProper_addEntry entry given proper

theorem isProper_openHeader {place : Place} (opened : d.openHeader place = some d')
    (proper : d.entries.IsProper) : d'.entries.IsProper := by
  rw [openHeader] at opened
  split_ifs at opened
  obtain ⟨entries, table, rfl⟩ := Option.map_eq_some_iff.1 opened
  exact isProper_openTable table proper

theorem isProper_appendHeader {place : Place} (appended : d.appendHeader place = some d')
    (proper : d.entries.IsProper) : d'.entries.IsProper := by
  simp only [appendHeader] at appended
  split_ifs at appended
  obtain ⟨entries, table, rfl⟩ := Option.map_eq_some_iff.1 appended
  exact isProper_appendTable table proper

theorem isProper_pairInto (read : pairInto d cs = some (d', after))
    (proper : d.entries.IsProper) : d'.entries.IsProper := by
  rw [pairInto] at read
  split at read
  · simp only [Option.bind_eq_bind, Option.bind_eq_some_iff] at read
    obtain ⟨⟨v, rest⟩, found, later, added, same⟩ := read
    obtain rfl := eq_of_read same
    exact isProper_addPair added (isGiven_of_value found) proper
  · cases read

theorem isProper_headerInto (read : headerInto d cs = some (d', after))
    (proper : d.entries.IsProper) : d'.entries.IsProper := by
  unfold headerInto at read
  split at read
  · split at read
    · obtain ⟨later, appended, same⟩ := Option.map_eq_some_iff.1 read
      obtain ⟨rfl, -⟩ := Prod.mk.inj same
      exact isProper_appendHeader appended proper
    · cases read
  · split at read
    · obtain ⟨later, opened, same⟩ := Option.map_eq_some_iff.1 read
      obtain ⟨rfl, -⟩ := Prod.mk.inj same
      exact isProper_openHeader opened proper
    · cases read

theorem isProper_statementInto (read : statementInto d cs = some (d', after))
    (proper : d.entries.IsProper) : d'.entries.IsProper := by
  cases cs with
  | nil =>
    obtain rfl := eq_of_read read
    exact proper
  | cons c rest =>
    rw [statementInto] at read
    split_ifs at read
    · obtain rfl := eq_of_read read
      exact proper
    · exact isProper_headerInto read proper
    · exact isProper_pairInto read proper

theorem isProper_lines {steps : Nat} (read : lines steps d cs = some d')
    (proper : d.entries.IsProper) : d'.entries.IsProper := by
  induction steps generalizing d cs with
  | zero => cases read
  | succ steps ih =>
    simp only [lines, Option.bind_eq_bind, Option.bind_eq_some_iff] at read
    obtain ⟨⟨later, rest⟩, statement, ending, -, read⟩ := read
    have kept := isProper_statementInto statement proper
    split at read
    · obtain rfl := Option.some.inj read
      exact kept
    · exact ih read kept
    · cases read

end Draft

theorem isProper_read? {document : String} {table : Entries Datum}
    (read : read? document = some table) : table.IsProper := by
  obtain ⟨d, lines, rfl⟩ := Option.map_eq_some_iff.1 read
  exact Draft.isProper_lines lines .nil

end Toml

end ComplexityMeter
