import Mathlib.Data.String.Basic
import ComplexityMeter.Proofs.Config.Sources

/-!
# Precedence of sources

A field takes its value from the strongest source that gives one, weights come whole from the
strongest source that gives any, and a fault of any source fails the configuration, whatever
stronger sources say.
-/

namespace ComplexityMeter.Config

open Metrics (Category)

/-- A fault of a source that no other source can make up for. -/
inductive Fault (s : Surroundings) (explicit : Option String) (overrides : Layer) : Prop where
  /-- What stands where a source has its file cannot be read as a table. -/
  | unreadable (source : Source) (found : Found) (place : source.found? s explicit = some found)
      (there : isThere found = true) (unread : tableIn? found = none)
  /-- The file that is named explicitly is missing. -/
  | missing (found : Found) (place : Source.explicit.found? s explicit = some found)
      (absent : isThere found = false)
  /-- An environment variable does not hold what its field is read as. -/
  | unparsed (f : Field) (text : String) (set : s.environment.get? f.variableName = some text)
      (refused : ∀ v, variableValue f text ≠ .ok v)
  /-- A source gives something under a name that is no field. -/
  | unknown (source : Source) (name : String) (given : name ∈ source.names s explicit overrides)
      (notField : name ∉ fieldNames)

section

variable {s : Surroundings} {explicit : Option String} {overrides : Layer} {c : Config}
  {e : Failure}

/-! ### Loading -/

theorem load_eq_ok (h : load s explicit overrides = .ok c) :
    ∃ ls weights, layers s explicit overrides = .ok ls
      ∧ acceptWeights (Layer.stack ls).weights = .ok weights
      ∧ ofEntries (Layer.stack ls).fields (weights.map .record) = .ok c := by
  simp only [load, bind_eq_ok_iff] at h
  obtain ⟨ls, stacked, given⟩ := h
  simp only [ofLayer, bind_eq_ok_iff] at given
  obtain ⟨weights, accepted, built⟩ := given
  refine ⟨ls, weights, stacked, accepted, ?_⟩
  split at built
  · split at built <;> cases built
  · exact built

theorem value_of_load (distinct : overrides.IsDistinct) (h : load s explicit overrides = .ok c)
    (f : Field) : c.value f
      = (Source.ranked.findSome? (Source.value? s explicit overrides f)).getD f.default := by
  obtain ⟨ls, weights, stacked, -, built⟩ := load_eq_ok h
  have layered : ∀ layer ∈ ls, layer.IsDistinct := by
    intro layer known
    obtain rfl | ⟨source, own⟩ := layer_of_mem stacked known
    · exact List.nodup_nil
    · exact isDistinct_of_layer? distinct own
  obtain ⟨-, -, rfl⟩ := ofEntries_eq_ok_iff.1 built
  change (Entries.get? f.name (Layer.stack ls).fields).getD f.default = _
  rw [Layer.get?_stack layered,
    findSome?_layers (fun layer => layer.fields.get? f.name) rfl stacked]
  simp only [value?_of_layer?]

/-- The record that weights stand for. A table leaves the categories that it does not name at
their defaults. -/
def Stands (r : WeightRecord) : Option WeightsGiven → Prop
  | none | some (.value .null) => r = .default
  | some (.record given) => r = given
  | some (.value (.table entries)) =>
    ∀ category, r category
      = (Entries.get? category.weightName entries).getD (WeightRecord.default category)
  | some (.value _) => False

theorem stands_of_acceptWeights {given : Option WeightsGiven} {weights : Option WeightRecord}
    (h : acceptWeights given = .ok weights) : Stands (weights.getD .default) given := by
  unfold acceptWeights at h
  split at h
  · obtain rfl := Except.ok.inj h
    rfl
  · obtain rfl := Except.ok.inj h
    rfl
  · obtain rfl := Except.ok.inj h
    rfl
  · split at h
    case h_1 entries r read =>
      obtain rfl := Except.ok.inj h
      rw [WeightRecord.ofEntries] at read
      split at read
      · cases read
      · obtain rfl := Except.ok.inj read
        exact fun _ => rfl
    case h_2 => cases h
  · cases h

/-- Weights are those of the strongest source that gives any, as a whole. -/
theorem weights_of_load (h : load s explicit overrides = .ok c) :
    ∃ r, c.weights = .record r
      ∧ Stands r (Source.ranked.findSome? (Source.weights? s explicit overrides)) := by
  obtain ⟨ls, weights, stacked, accepted, built⟩ := load_eq_ok h
  obtain ⟨-, -, rfl⟩ := ofEntries_eq_ok_iff.1 built
  refine ⟨weights.getD .default, by cases weights <;> rfl, ?_⟩
  rw [Layer.weights_stack, findSome?_layers Layer.weights rfl stacked] at accepted
  simp only [weights?_of_layer?] at accepted
  exact stands_of_acceptWeights accepted

/-! ### Faults -/

theorem not_fault_of_load (h : load s explicit overrides = .ok c) :
    ¬ Fault s explicit overrides := by
  obtain ⟨ls, weights, stacked, -, built⟩ := load_eq_ok h
  obtain ⟨-, readable, there, parsed⟩ := layers_eq_ok stacked
  obtain ⟨known, -⟩ := ofEntries_eq_ok_iff.1 built
  intro fault
  cases fault with
  | unreadable source found place stands unread =>
    have read := readable source found place stands
    rw [unread] at read
    cases read
  | missing found place absent =>
    rw [there found place] at absent
    cases absent
  | unparsed f text set refused =>
    obtain ⟨v, read⟩ := parsed f text set
    exact refused v read
  | unknown source name given notField =>
    refine notField ?_
    obtain rfl | ⟨layer, own, stands⟩ := mem_names_layer given
    · decide
    · exact checkNames_eq_ok_iff.1 known name
        (Layer.mem_names_stack.2 ⟨layer, mem_layers stacked own, stands⟩)

/-! ### Failures -/

theorem ofSetting_eq (key : String) (value : Datum) (reason : String) :
    (Failure.ofSetting key value reason).IsInvalidSetting
      ∨ Failure.ofSetting key value reason = .longNumeral ∧ value.isWritable = false := by
  cases writable : value.isWritable with
  | true => exact .inl ⟨key, value.shown, reason, by simp [Failure.ofSetting, writable]⟩
  | false => exact .inr ⟨by simp [Failure.ofSetting, writable], rfl⟩

theorem entriesWritable_iff {entries : Entries Datum} :
    Value.entriesWritable entries = true ↔ ∀ entry ∈ entries, entry.2.isWritable = true := by
  induction entries with
  | nil => simp [Value.entriesWritable]
  | cons first rest ih =>
    obtain ⟨name, v⟩ := first
    rw [Value.entriesWritable, Bool.and_eq_true, ih, List.forall_mem_cons]

theorem isWritable_default (f : Field) : f.default.isWritable = true := by
  cases f <;> decide +kernel

theorem isWritable_defaultWeight (category : Category) :
    (WeightRecord.default category).isWritable = true := by
  cases category <;> rfl

theorem mem_data_of_get? {given : Layer} {name : String} {v : Datum}
    (h : given.fields.get? name = some v) : v ∈ given.data :=
  List.mem_append_left _ (List.mem_map.2 ⟨_, Entries.mem_of_get?_eq_some h, rfl⟩)

theorem mem_data_of_weights {given : Layer} {w : WeightsGiven} {v : Datum}
    (h : given.weights = some w) (own : v ∈ w.data) : v ∈ given.data :=
  List.mem_append_right _ (by simpa [h] using own)

theorem ofEntries_eq_error {given : Layer} {weights : Option WeightsGiven}
    (h : ofEntries given.fields weights = .error e) :
    (∃ cause, e = .misuse cause) ∨ e.IsInvalidSetting
      ∨ e = .longNumeral ∧ ∃ v ∈ given.data, v.isWritable = false := by
  simp only [ofEntries, bind_eq_error_iff] at h
  obtain names | ⟨_, -, values | ⟨_, -, built⟩⟩ := h
  · rw [checkNames] at names
    split at names
    · exact .inl ⟨_, (Except.error.inj names).symm⟩
    · cases names
  · rw [checkValues, List.forM_eq_forM, forM_eq_error_iff] at values
    obtain ⟨_, f, _, _, _, refused⟩ := values
    rw [Field.check] at refused
    split at refused
    · cases refused
    · obtain rfl := Except.error.inj refused
      refine .inr ((ofSetting_eq f.name (valueIn given.fields f) f.demand.reason).imp_right ?_)
      rintro ⟨long, unwritable⟩
      refine ⟨long, ?_⟩
      cases own : given.fields.get? f.name with
      | none => simp [valueIn, own, isWritable_default] at unwritable
      | some v => exact ⟨v, mem_data_of_get? own, by simpa [valueIn, own] using unwritable⟩
    · exact .inl ⟨_, (Except.error.inj refused).symm⟩
  · cases built

theorem acceptWeights_eq_error {given : Layer} (h : acceptWeights given.weights = .error e) :
    e.IsInvalidSetting ∨ e = .longNumeral ∧ ∃ v ∈ given.data, v.isWritable = false := by
  have refused {v : Datum} {reason : String} (own : given.weights = some (.value v))
      (h : Failure.ofSetting "weights" v reason = e) :
      e.IsInvalidSetting ∨ e = .longNumeral ∧ ∃ v ∈ given.data, v.isWritable = false := by
    subst h
    exact (ofSetting_eq "weights" v reason).imp_right fun ⟨long, unwritable⟩ =>
      ⟨long, v, mem_data_of_weights own (by simp [WeightsGiven.data]), unwritable⟩
  unfold acceptWeights at h
  split at h
  · cases h
  · cases h
  · cases h
  case h_4 entries own =>
    split at h
    · cases h
    · exact refused own (Except.error.inj h)
  case h_5 other _ own => exact refused own (Except.error.inj h)

theorem isWritable_record {given : Layer} {r : WeightRecord}
    (accepted : acceptWeights given.weights = .ok (some r))
    (writable : ∀ v ∈ given.data, v.isWritable = true) (category : Category) :
    (r category).isWritable = true := by
  cases own : given.weights with
  | none =>
    rw [own] at accepted
    cases accepted
  | some w =>
    have stands : Stands r given.weights := stands_of_acceptWeights accepted
    rw [own] at stands
    cases w with
    | record given =>
      obtain rfl : r = given := stands
      exact writable _ (mem_data_of_weights own (List.mem_map_of_mem category.mem_all))
    | value v =>
      cases v with
      | null =>
        obtain rfl : r = WeightRecord.default := stands
        exact isWritable_defaultWeight category
      | table entries =>
        have table := writable _ (mem_data_of_weights own List.mem_cons_self)
        rw [Value.isWritable, entriesWritable_iff] at table
        rw [stands category]
        cases named : Entries.get? category.weightName entries with
        | none => exact isWritable_defaultWeight category
        | some v => exact table _ (Entries.mem_of_get?_eq_some named)
      | _ => exact stands.elim

theorem givenWritable_of_writable {given : Layer} {weights : Option WeightRecord}
    (accepted : acceptWeights given.weights = .ok weights)
    (writable : ∀ v ∈ given.data, v.isWritable = true) :
    givenWritable given.fields weights = true := by
  rw [givenWritable, Bool.and_eq_true, entriesWritable_iff]
  refine ⟨fun entry known =>
    writable _ (List.mem_append_left _ (List.mem_map_of_mem known)), ?_⟩
  cases weights with
  | none => rfl
  | some r =>
    exact List.all_eq_true.2 fun category _ => isWritable_record accepted writable category

theorem ofLayer_eq_error {given : Layer} (h : ofLayer given = .error e) :
    e.IsInvalidSetting ∨ e = .longNumeral ∧ ∃ v ∈ given.data, v.isWritable = false := by
  rw [ofLayer, bind_eq_error_iff] at h
  obtain refused | ⟨weights, accepted, h⟩ := h
  · exact acceptWeights_eq_error refused
  · split at h
    · split at h
      · exact .inl ⟨_, _, _, (Except.error.inj h).symm⟩
      case isFalse long =>
        obtain rfl := Except.error.inj h
        refine .inr ⟨rfl, ?_⟩
        by_contra none
        refine long (givenWritable_of_writable accepted fun v known => ?_)
        by_contra unwritable
        exact none ⟨v, known, Bool.eq_false_iff.2 unwritable⟩
    case h_2 outside =>
      obtain ⟨cause, rfl⟩ | other := ofEntries_eq_error h
      · exact (outside cause h).elim
      · exact other

/-- A configuration fails to load with a message about a setting, unless the path of the explicit
file is too long to be looked up or something that was given is too long to be shown. -/
theorem load_eq_error (h : load s explicit overrides = .error e) :
    e.IsInvalidSetting
    ∨ e = .longPath ∧ Source.explicit.found? s explicit = some .tooLong
    ∨ e = .longNumeral ∧ ∃ ls, layers s explicit overrides = .ok ls
        ∧ ∃ layer ∈ ls, ∃ v ∈ layer.data, v.isWritable = false := by
  rw [load, bind_eq_error_iff] at h
  obtain unread | ⟨ls, stacked, refused⟩ := h
  · exact (layers_eq_error unread).imp_right .inl
  · obtain invalid | ⟨long, v, given, unwritable⟩ := ofLayer_eq_error refused
    · exact .inl invalid
    · obtain ⟨layer, known, own⟩ := Layer.mem_data_stack given
      exact .inr (.inr ⟨long, ls, stacked, layer, known, v, own, unwritable⟩)

theorem load_set_weights (text : String) :
    load { s with environment := s.environment.set "COMPLEXITY_WEIGHTS" text } explicit overrides
      = load s explicit overrides := by
  have same : variableSetting? (s.environment.set "COMPLEXITY_WEIGHTS" text)
      = variableSetting? s.environment := by
    funext f
    have other : f.variableName ≠ "COMPLEXITY_WEIGHTS" := by cases f <;> decide
    rw [variableSetting?, variableSetting?, Entries.get?_set, if_neg other]
  rw [load, load, layers, layers, environmentLayer, environmentLayer, same]

end

/-- When a configuration loads, every field has the value of the strongest source that gives one or
else its default, and the weights are those of the strongest source that gives any, with a table of
weights leaving to their defaults what it does not name. Weights in the environment are ignored. A
fault of any source fails the configuration; and the failure names a setting, unless the path of the
explicit file is too long to be looked up or something given is too long to be shown. The home and
the working directory exist here, and access is never denied. -/
theorem load_by_precedence (s : Surroundings) (explicit : Option String) {overrides : Layer}
    (distinct : overrides.IsDistinct) :
    (∀ c, load s explicit overrides = .ok c →
      (∀ f, c.value f
        = (Source.ranked.findSome? (Source.value? s explicit overrides f)).getD f.default)
      ∧ ∃ r, c.weights = .record r
          ∧ Stands r (Source.ranked.findSome? (Source.weights? s explicit overrides)))
    ∧ (∀ text, load { s with environment := s.environment.set "COMPLEXITY_WEIGHTS" text } explicit
        overrides = load s explicit overrides)
    ∧ (Fault s explicit overrides → ∃ e, load s explicit overrides = .error e)
    ∧ ∀ e, load s explicit overrides = .error e →
        e.IsInvalidSetting
        ∨ e = .longPath ∧ Source.explicit.found? s explicit = some .tooLong
        ∨ e = .longNumeral ∧ ∃ ls, layers s explicit overrides = .ok ls
            ∧ ∃ layer ∈ ls, ∃ v ∈ layer.data, v.isWritable = false := by
  refine ⟨fun c loaded => ⟨value_of_load distinct loaded, weights_of_load loaded⟩,
    load_set_weights, fun fault => ?_, fun e => load_eq_error⟩
  cases loaded : load s explicit overrides with
  | error e => exact ⟨e, rfl⟩
  | ok c => exact (not_fault_of_load loaded fault).elim

/-- A working directory whose settings file holds a text. -/
def projectOf (text : String) (environment : Entries String) : Surroundings :=
  ⟨⟨[], [([projectFile.toList], .file (text.toList.map Char.toNat))]⟩, environment⟩

/-- Three sources that give a count or a depth each. -/
def threeSources : Surroundings :=
  projectOf "max_depth = 7\nsummary_top_n = 3\nmodule_max_depth = 4\n"
    [("COMPLEXITY_MAX_DEPTH", "9")]

def twoEntries : Layer := ⟨[("summary_top_n", .number (.int 2))], none⟩

theorem exists_load_threeSources : ∃ c, load threeSources none twoEntries = .ok c :=
  exists_ok_of_isOk (by decide +kernel)

theorem load_by_precedence_threeSources :
    twoEntries.IsDistinct
    ∧ (∃ c, load threeSources none twoEntries = .ok c
        ∧ c.value .maxDepth = .number (.int 9)
        ∧ c.value .topCount = .number (.int 2)
        ∧ (c.value .moduleMaxDepth).number?.map Number.floor = some 4)
    ∧ ∃ e, load (projectOf "summary_top_n =" []) none twoEntries = .error e := by
  have distinct : twoEntries.IsDistinct := List.nodup_singleton _
  have unread : (tableIn? ((projectOf "summary_top_n =" []).files.working.find projectFile)).isNone
      = true := by decide +kernel
  obtain ⟨whole, -⟩ := load_by_precedence threeSources none distinct
  obtain ⟨-, -, faulty, -⟩ := load_by_precedence (projectOf "summary_top_n =" []) none distinct
  obtain ⟨c, loaded⟩ := exists_load_threeSources
  obtain ⟨values, -⟩ := whole c loaded
  have third : (c.value .moduleMaxDepth).number?.map Number.floor = some 4 := by
    rw [values .moduleMaxDepth]
    decide +kernel
  exact ⟨distinct, ⟨c, loaded, values .maxDepth, values .topCount, third⟩,
    faulty (.unreadable .project _ rfl rfl (Option.isNone_iff_eq_none.1 unread))⟩

/-! ### Faults without a message about a setting -/

theorem load_eq_longPath {s : Surroundings} {path : String} {overrides home project : Layer}
    (homeRead : optionalLayer ("~/" ++ homeFile) (s.files.home.find homeFile) = .ok home)
    (projectRead : optionalLayer projectFile (s.files.working.find projectFile) = .ok project)
    (long : s.files.working.find (Path.tidy path) = .tooLong) :
    load s (some path) overrides = .error .longPath := by
  simp only [load, layers, homeRead, projectRead, Option.mapM_some, explicitLayer, long, fileLayer,
    bind, Except.bind, Functor.map, Except.map]

theorem load_eq_longNumeral {s : Surroundings} {explicit : Option String} {overrides : Layer}
    {weights : Option WeightRecord} {cause : Misuse} (ls : List Layer)
    (stacked : layers s explicit overrides = .ok ls)
    (accepted : acceptWeights (Layer.stack ls).weights = .ok weights)
    (misplaced : ofEntries (Layer.stack ls).fields (weights.map .record) = .error (.misuse cause))
    (long : givenWritable (Layer.stack ls).fields weights = false) :
    load s explicit overrides = .error .longNumeral := by
  simp [load, ofLayer, stacked, accepted, misplaced, long, bind, Except.bind, throw, throwThe,
    MonadExceptOf.throw]

def nowhere : Surroundings := ⟨⟨[], []⟩, []⟩

/-- One letter more than a name can have. -/
def longName : List Char := List.replicate 256 'a'

theorem find_longName (d : Directory) :
    d.find (Path.tidy (String.ofList longName)) = .tooLong := by
  have text : Path.rootText longName ++ Path.join (Path.names longName) = longName := by
    decide +kernel
  have tidy : Path.tidy (String.ofList longName) = String.ofList longName := by
    rw [Path.tidy, String.toList_ofList, text]
    rfl
  have names : Directory.namesOf longName = [longName] := by decide +kernel
  have long : Directory.isLongName longName = true := by
    rw [Directory.isLongName, String.utf8ByteSize_ofList]
    decide +kernel
  have here : d.at? [] = some .directory := rfl
  rw [Directory.find, tidy, String.toList_ofList, names]
  split
  · rfl
  · simp only [Directory.follow, here, long, if_true]

/-- A whole number of more digits than a numeral may have, under a name that is no field. -/
def wideColour : Layer := ⟨[("colour", .number (.int (Nat.pow 10 4300 : Nat)))], none⟩

/-- A missing file with too long a name fails without saying which setting is invalid, and so does a
name that is no field beside a number that no message can show. -/
theorem faults_without_setting :
    (Fault nowhere (some (String.ofList longName)) .empty
      ∧ load nowhere (some (String.ofList longName)) .empty = .error .longPath
      ∧ ¬ Failure.longPath.IsInvalidSetting)
    ∧ Fault nowhere none wideColour
    ∧ load nowhere none wideColour = .error .longNumeral
    ∧ ¬ Failure.longNumeral.IsInvalidSetting := by
  have missing : Fault nowhere (some (String.ofList longName)) .empty :=
    .missing .tooLong (congrArg some (find_longName [])) rfl
  have unknown : Fault nowhere none wideColour :=
    .unknown .overrides "colour" List.mem_cons_self (by decide)
  have wide : load nowhere none wideColour = .error .longNumeral :=
    load_eq_longNumeral [.empty, .empty, .empty, wideColour] rfl rfl rfl (by decide +kernel)
  have long : load nowhere (some (String.ofList longName)) .empty = .error .longPath :=
    load_eq_longPath rfl rfl (find_longName [])
  exact ⟨⟨missing, long, by rintro ⟨_, _, _, ⟨⟩⟩⟩, unknown, wide, by rintro ⟨_, _, _, ⟨⟩⟩⟩

end ComplexityMeter.Config
