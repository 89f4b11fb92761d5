import Mathlib.Data.List.Induction
import ComplexityMeter.Config.Source
import ComplexityMeter.Proofs.Config.Acceptance
import ComplexityMeter.Proofs.Entries
import ComplexityMeter.Proofs.Toml.Document

/-!
# Layers of a configuration

What a stack of layers gives is what its uppermost layer gives that gives anything, name by name.
Each source has one layer in the stack, and a source that cannot be read has none at all.
-/

namespace ComplexityMeter

/-- A failure that says which setting is invalid. -/
def Failure.IsInvalidSetting (e : Failure) : Prop :=
  ∃ key value reason, e = .invalidSetting key value reason

namespace Config

open Metrics (Category)

/-- The values given as weights: one value, or one for every category. -/
def WeightsGiven.data : WeightsGiven → List Datum
  | .value v => [v]
  | .record r => Category.all.map r

/-! ### Stacks -/

namespace Layer

/-- A layer names every value once. -/
def IsDistinct (layer : Layer) : Prop :=
  (layer.fields.map Prod.fst).Nodup

def data (layer : Layer) : List Datum :=
  layer.fields.map Prod.snd ++ layer.weights.toList.flatMap WeightsGiven.data

variable {lower upper : Layer} {name : String} {layers : List Layer}

theorem stack_concat : stack (layers ++ [upper]) = upper.atop (stack layers) := by
  rw [stack, stack, List.foldl_append, List.foldl_cons, List.foldl_nil]

theorem get?_stack (distinct : ∀ layer ∈ layers, layer.IsDistinct) :
    (stack layers).fields.get? name
      = layers.reverse.findSome? fun layer => layer.fields.get? name := by
  induction layers using List.reverseRecOn with
  | nil => rfl
  | append_singleton lower upper ih =>
    rw [stack_concat, atop, Entries.get?_update (distinct upper (by simp)),
      ih fun layer h => distinct layer (List.mem_append_left _ h), List.reverse_concat,
      List.findSome?_cons]
    cases Entries.get? name upper.fields <;> rfl

theorem weights_stack : (stack layers).weights = layers.reverse.findSome? Layer.weights := by
  induction layers using List.reverseRecOn with
  | nil => rfl
  | append_singleton lower upper ih =>
    rw [stack_concat, atop, ih, List.reverse_concat, List.findSome?_cons]
    cases upper.weights <;> rfl

theorem mem_names_stack : name ∈ (stack layers).fields.map Prod.fst
    ↔ ∃ layer ∈ layers, name ∈ layer.fields.map Prod.fst := by
  induction layers using List.reverseRecOn with
  | nil => simp [stack, empty]
  | append_singleton lower upper ih =>
    rw [stack_concat, atop, Entries.mem_names_update, ih]
    simp only [List.mem_append, List.mem_singleton, or_and_right, exists_or, exists_eq_left]

theorem mem_fields_stack {entry : String × Datum} (h : entry ∈ (stack layers).fields) :
    ∃ layer ∈ layers, entry ∈ layer.fields := by
  induction layers using List.reverseRecOn with
  | nil => cases h
  | append_singleton lower upper ih =>
    rw [stack_concat] at h
    obtain below | above := Entries.mem_of_mem_update h
    · obtain ⟨layer, known, own⟩ := ih below
      exact ⟨layer, List.mem_append_left _ known, own⟩
    · exact ⟨upper, by simp, above⟩

theorem mem_data_atop {v : Datum} (h : v ∈ (upper.atop lower).data) :
    v ∈ upper.data ∨ v ∈ lower.data := by
  obtain field | weight := List.mem_append.1 h
  · obtain ⟨entry, known, rfl⟩ := List.mem_map.1 field
    obtain below | above := Entries.mem_of_mem_update known
    · exact .inr (List.mem_append_left _ (List.mem_map_of_mem below))
    · exact .inl (List.mem_append_left _ (List.mem_map_of_mem above))
  · rw [atop] at weight
    cases own : upper.weights with
    | none => exact .inr (List.mem_append_right _ (by simpa [own] using weight))
    | some given => exact .inl (List.mem_append_right _ (by simpa [own] using weight))

theorem mem_data_stack {v : Datum} (h : v ∈ (stack layers).data) :
    ∃ layer ∈ layers, v ∈ layer.data := by
  induction layers using List.reverseRecOn with
  | nil => cases h
  | append_singleton lower upper ih =>
    rw [stack_concat] at h
    obtain above | below := mem_data_atop h
    · exact ⟨upper, by simp, above⟩
    · obtain ⟨layer, known, given⟩ := ih below
      exact ⟨layer, List.mem_append_left _ known, given⟩

end Layer

/-! ### Layers of files -/

def isThere : Found → Bool
  | .file _ | .directory => true
  | .absent | .belowFile | .tooLong => false

/-- The table that a file holds. -/
def tableIn? : Found → Option (Entries Datum)
  | .file octets => tableOf? octets
  | .directory | .absent | .belowFile | .tooLong => none

variable {path : String} {found : Found} {layer : Layer} {e : Failure}

theorem isProper_tableIn? {table : Entries Datum} (h : tableIn? found = some table) :
    table.IsProper := by
  cases found with
  | file octets =>
    simp only [tableIn?, tableOf?] at h
    split at h
    · exact Toml.isProper_read? h
    · cases h
  | _ => cases h

theorem fileLayer_eq_ok {given : Option Layer} (h : fileLayer path found = .ok given) :
    given = (tableIn? found).map Layer.ofTable
      ∧ (isThere found = true → (tableIn? found).isSome) := by
  cases found with
  | file octets =>
    simp only [fileLayer] at h
    split at h
    case h_1 table read =>
      obtain rfl := Except.ok.inj h
      simp [tableIn?, read]
    case h_2 => cases h
  | absent | belowFile =>
    obtain rfl := Except.ok.inj h
    exact ⟨rfl, fun there => absurd there Bool.false_ne_true⟩
  | directory | tooLong => cases h

theorem fileLayer_eq_error (h : fileLayer path found = .error e) :
    e.IsInvalidSetting ∨ e = .longPath ∧ found = .tooLong := by
  cases found with
  | file octets =>
    simp only [fileLayer] at h
    split at h
    case h_1 => cases h
    case h_2 =>
      obtain rfl := Except.error.inj h
      exact .inl ⟨_, _, _, rfl⟩
  | directory =>
    obtain rfl := Except.error.inj h
    exact .inl ⟨_, _, _, rfl⟩
  | tooLong =>
    obtain rfl := Except.error.inj h
    exact .inr ⟨rfl, rfl⟩
  | absent | belowFile => cases h

theorem optionalLayer_eq_ok (h : optionalLayer path found = .ok layer) :
    layer = Layer.ofTable ((tableIn? found).getD [])
      ∧ (isThere found = true → (tableIn? found).isSome) := by
  rw [optionalLayer] at h
  cases read : fileLayer path found with
  | error e => simp [read, Except.map] at h
  | ok given =>
    obtain ⟨rfl, readable⟩ := fileLayer_eq_ok read
    obtain rfl : ((tableIn? found).map Layer.ofTable).getD Layer.empty = layer := by
      simpa [read, Except.map] using h
    refine ⟨?_, readable⟩
    cases tableIn? found <;> rfl

theorem optionalLayer_eq_error (h : optionalLayer path found = .error e) :
    e.IsInvalidSetting ∨ e = .longPath ∧ found = .tooLong := by
  rw [optionalLayer] at h
  cases read : fileLayer path found with
  | error e' =>
    obtain rfl : e' = e := by simpa [read, Except.map] using h
    exact fileLayer_eq_error read
  | ok given => simp [read, Except.map] at h

variable {files : Files}

theorem explicitLayer_eq_ok (h : explicitLayer files path = .ok layer) :
    ∃ table, tableIn? (files.working.find (Path.tidy path)) = some table
      ∧ layer = Layer.ofTable table := by
  cases read : fileLayer (Path.tidy path) (files.working.find (Path.tidy path)) with
  | error e => simp [explicitLayer, read, bind, Except.bind] at h
  | ok given =>
    obtain ⟨rfl, -⟩ := fileLayer_eq_ok read
    cases holds : tableIn? (files.working.find (Path.tidy path)) with
    | none => simp [explicitLayer, read, holds, bind, Except.bind, throw, throwThe,
        MonadExceptOf.throw] at h
    | some table =>
      simp only [explicitLayer, read, holds, bind, Except.bind, pure, Except.pure,
        Option.map_some] at h
      exact ⟨table, rfl, (Except.ok.inj h).symm⟩

theorem explicitLayer_eq_error (h : explicitLayer files path = .error e) :
    e.IsInvalidSetting ∨ e = .longPath ∧ files.working.find (Path.tidy path) = .tooLong := by
  cases read : fileLayer (Path.tidy path) (files.working.find (Path.tidy path)) with
  | error e' =>
    obtain rfl : e' = e := by simpa [explicitLayer, read, bind, Except.bind] using h
    exact fileLayer_eq_error read
  | ok given =>
    cases given with
    | none =>
      refine .inl ⟨"config_file", Path.tidy path, "file not found", ?_⟩
      simpa [explicitLayer, read, bind, Except.bind, throw, throwThe, MonadExceptOf.throw,
        eq_comm] using h
    | some layer => simp [explicitLayer, read, bind, Except.bind, pure, Except.pure] at h

/-! ### The layer of the environment -/

def environmentValue? (environment : Entries String) (f : Field) : Option Datum :=
  (environment.get? f.variableName).bind fun text => (variableValue f text).toOption

def entriesOf (value : Field → Option Datum) (fs : List Field) : Entries Datum :=
  fs.filterMap fun f => (value f).map fun v => (f.name, v)

theorem Field.nodup_names : (Field.all.map Field.name).Nodup := by
  decide

theorem Field.name_injective : Function.Injective Field.name :=
  fun f g => List.inj_on_of_nodup_map Field.nodup_names f.mem_all g.mem_all

theorem get?_entriesOf (value : Field → Option Datum) (f : Field) (fs : List Field) :
    Entries.get? f.name (entriesOf value fs) = if f ∈ fs then value f else none := by
  induction fs with
  | nil => rfl
  | cons g rest ih =>
    by_cases same : f = g
    · subst same
      cases gives : value f with
      | none => simpa [entriesOf, gives] using ih
      | some v => simp [entriesOf, gives, Entries.get?]
    · have other : (f.name == g.name) = false :=
        beq_eq_false_iff_ne.2 fun names => same (Field.name_injective names)
      cases gives : value g with
      | none => simpa [entriesOf, gives, same] using ih
      | some v => simpa [entriesOf, gives, same, Entries.get?, List.lookup_cons, other] using ih

theorem isDistinct_entriesOf (value : Field → Option Datum) :
    Layer.IsDistinct ⟨entriesOf value Field.all, none⟩ := by
  have names (fs : List Field) :
      ((entriesOf value fs).map Prod.fst).Sublist (fs.map Field.name) := by
    induction fs with
    | nil => exact .slnil
    | cons f rest ih =>
      cases gives : value f with
      | none => simpa [entriesOf, gives] using ih.cons f.name
      | some v => simpa [entriesOf, gives] using ih
  exact Field.nodup_names.sublist (names Field.all)

variable {environment : Entries String}

theorem variableSetting?_eq_ok {f : Field} {entry : Option (String × Datum)}
    (h : variableSetting? environment f = .ok entry) :
    entry = (environmentValue? environment f).map (fun v => (f.name, v))
      ∧ ∀ text, environment.get? f.variableName = some text →
          ∃ v, variableValue f text = .ok v := by
  rw [variableSetting?] at h
  cases set : environment.get? f.variableName with
  | none =>
    rw [set] at h
    obtain rfl := Except.ok.inj h
    exact ⟨by simp [environmentValue?, set], nofun⟩
  | some text =>
    rw [set] at h
    cases read : variableValue f text with
    | error e => simp [read, Except.map] at h
    | ok v =>
      obtain rfl : some (f.name, v) = entry := by simpa [read, Except.map] using h
      refine ⟨by simp [environmentValue?, set, read, Except.toOption], ?_⟩
      rintro _ same
      exact Option.some.inj same ▸ ⟨v, read⟩

theorem variableSetting?_eq_error {f : Field} (h : variableSetting? environment f = .error e) :
    e.IsInvalidSetting := by
  rw [variableSetting?] at h
  split at h
  case h_1 => cases h
  case h_2 text set =>
    cases read : variableValue f text with
    | ok v => simp [read, Except.map] at h
    | error e' =>
      obtain rfl : e' = e := by simpa [read, Except.map] using h
      unfold variableValue at read
      split at read
      · cases read
      · split at read
        · cases read
        · exact ⟨_, _, _, (Except.error.inj read).symm⟩
      · split at read
        · cases read
        · exact ⟨_, _, _, (Except.error.inj read).symm⟩

theorem environmentLayer_eq_ok (h : environmentLayer environment = .ok layer) :
    layer = ⟨entriesOf (environmentValue? environment) Field.all, none⟩
      ∧ ∀ f text, environment.get? f.variableName = some text →
          ∃ v, variableValue f text = .ok v := by
  cases run : Field.all.mapM (variableSetting? environment) with
  | error e => simp [environmentLayer, run, bind, Except.bind] at h
  | ok entries =>
    obtain rfl : ⟨entries.filterMap id, none⟩ = layer := by
      simpa [environmentLayer, run, bind, Except.bind, pure, Except.pure] using h
    have read := mapM_eq_ok_iff.1 run
    constructor
    · have given := List.forall₂_map_left_iff.2
        (read.imp fun f entry set => (variableSetting?_eq_ok set).1.symm)
      rw [List.forall₂_eq_eq_eq] at given
      rw [← given, entriesOf, List.filterMap_map]
      rfl
    · intro f text set
      obtain ⟨entry, -, setting⟩ := exists_of_mem_right (List.Forall₂.flip read) f.mem_all
      exact (variableSetting?_eq_ok setting).2 text set

theorem environmentLayer_eq_error (h : environmentLayer environment = .error e) :
    e.IsInvalidSetting := by
  cases run : Field.all.mapM (variableSetting? environment) with
  | ok entries => simp [environmentLayer, run, bind, Except.bind, pure, Except.pure] at h
  | error e' =>
    obtain rfl : e' = e := by simpa [environmentLayer, run, bind, Except.bind] using h
    obtain ⟨_, f, _, _, _, refused⟩ := mapM_eq_error_iff.1 run
    exact variableSetting?_eq_error refused

end Config

end ComplexityMeter
