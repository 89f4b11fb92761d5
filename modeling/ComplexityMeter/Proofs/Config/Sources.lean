import ComplexityMeter.Proofs.Config.Layers

/-!
# Sources and their layers

The sources of a configuration are ranked. What the layers of all sources are asked for is what the
strongest source answers that has an answer. No layers are read when any source is at fault.
-/

namespace ComplexityMeter.Config

/-- A source of settings. -/
inductive Source where
  | overrides
  | environment
  | explicit
  | project
  | home
  deriving DecidableEq, Repr

namespace Source

/-- All sources, the strongest first. -/
def ranked : List Source :=
  [.overrides, .environment, .explicit, .project, .home]

variable (s : Surroundings) (explicit : Option String) (overrides : Layer)

def found? : Source → Option Found
  | .explicit => explicit.map fun path => s.files.working.find (Path.tidy path)
  | .project => some (s.files.working.find projectFile)
  | .home => some (s.files.home.find homeFile)
  | .overrides | .environment => none

/-- The table that the file of a source holds. -/
def table? (source : Source) : Option (Entries Datum) :=
  (source.found? s explicit).bind tableIn?

/-- The value that a source gives to a field. -/
def value? (f : Field) : Source → Option Datum
  | .overrides => overrides.fields.get? f.name
  | .environment => environmentValue? s.environment f
  | source => (source.table? s explicit).bind (Entries.get? f.name)

/-- What a source gives as weights. The environment gives none. -/
def weights? : Source → Option WeightsGiven
  | .overrides => overrides.weights
  | .environment => none
  | source => (source.table? s explicit).bind fun table =>
    (Entries.get? "weights" table).map .value

def names : Source → List String
  | .overrides => overrides.fields.map Prod.fst
  | .environment => []
  | source => ((source.table? s explicit).getD []).map Prod.fst

def layer? : Source → Option Layer
  | .overrides => some overrides
  | .environment => some ⟨entriesOf (environmentValue? s.environment) Field.all, none⟩
  | source => (source.table? s explicit).map Layer.ofTable

end Source

section

variable {s : Surroundings} {explicit : Option String} {overrides : Layer} {ls : List Layer}
  {e : Failure}

/-! ### The layers of the sources -/

theorem get?_ofTable (table : Entries Datum) (f : Field) :
    (Layer.ofTable table).fields.get? f.name = Entries.get? f.name table :=
  Entries.get?_erase_of_ne (by cases f <;> decide)

theorem isThere_of_tableIn? {found : Found} {table : Entries Datum}
    (h : tableIn? found = some table) : isThere found = true := by
  cases found with
  | file _ | directory => rfl
  | absent | belowFile | tooLong => cases h

theorem namedLayer_eq_ok (overrides : Layer) {named : Option Layer}
    (h : (explicit.mapM (explicitLayer s.files) : Except Failure (Option Layer)) = .ok named) :
    named = Source.explicit.layer? s explicit overrides
      ∧ ∀ found, Source.explicit.found? s explicit = some found →
          isThere found = true ∧ (tableIn? found).isSome := by
  cases explicit with
  | none =>
    obtain rfl := Except.ok.inj h
    exact ⟨rfl, nofun⟩
  | some path =>
    cases read : explicitLayer s.files path with
    | error e => simp [read] at h
    | ok layer =>
      obtain rfl : some layer = named := by simpa [read] using h
      obtain ⟨table, holds, rfl⟩ := explicitLayer_eq_ok read
      refine ⟨?_, ?_⟩
      · simp [Source.layer?, Source.table?, Source.found?, holds]
      · intro found place
        obtain rfl := Option.some.inj place
        exact ⟨isThere_of_tableIn? holds, Option.isSome_of_eq_some holds⟩

theorem layers_eq_ok (h : layers s explicit overrides = .ok ls) :
    (ls = [(Source.home.layer? s explicit overrides).getD .empty,
        (Source.project.layer? s explicit overrides).getD .empty]
      ++ (Source.explicit.layer? s explicit overrides).toList
      ++ [⟨entriesOf (environmentValue? s.environment) Field.all, none⟩, overrides])
    ∧ (∀ (source : Source) found, source.found? s explicit = some found → isThere found = true →
        (tableIn? found).isSome)
    ∧ (∀ found, Source.explicit.found? s explicit = some found → isThere found = true)
    ∧ ∀ f text, s.environment.get? f.variableName = some text →
        ∃ v, variableValue f text = .ok v := by
  simp only [layers, bind_eq_ok_iff] at h
  obtain ⟨home, homeRead, project, projectRead, named, namedRead, environment, read, last⟩ := h
  obtain ⟨rfl, homeThere⟩ := optionalLayer_eq_ok homeRead
  obtain ⟨rfl, projectThere⟩ := optionalLayer_eq_ok projectRead
  obtain ⟨rfl, namedThere⟩ := namedLayer_eq_ok overrides namedRead
  obtain ⟨rfl, parsed⟩ := environmentLayer_eq_ok read
  obtain rfl := Except.ok.inj last
  have orEmpty (found : Found) : Layer.ofTable ((tableIn? found).getD [])
      = ((tableIn? found).map Layer.ofTable).getD .empty := by
    cases tableIn? found <;> rfl
  refine ⟨?_, ?_, fun found place => (namedThere found place).1, parsed⟩
  · rw [orEmpty, orEmpty]
    rfl
  · intro source found place there
    cases source with
    | home =>
      obtain rfl := Option.some.inj place
      exact homeThere there
    | project =>
      obtain rfl := Option.some.inj place
      exact projectThere there
    | explicit => exact (namedThere found place).2
    | overrides | environment => cases place

theorem findSome?_layers {β : Type} (look : Layer → Option β) (nothing : look .empty = none)
    (h : layers s explicit overrides = .ok ls) :
    ls.reverse.findSome? look
      = Source.ranked.findSome? fun source => (source.layer? s explicit overrides).bind look := by
  obtain ⟨rfl, -⟩ := layers_eq_ok h
  have orEmpty (layer : Option Layer) : look (layer.getD .empty) = layer.bind look := by
    cases layer with
    | none => exact nothing
    | some _ => rfl
  have own : Source.overrides.layer? s explicit overrides = some overrides := rfl
  have environment : Source.environment.layer? s explicit overrides
      = some ⟨entriesOf (environmentValue? s.environment) Field.all, none⟩ := rfl
  cases named : Source.explicit.layer? s explicit overrides <;>
    simp [Source.ranked, List.findSome?, orEmpty, own, environment, named]

theorem layer_of_mem (h : layers s explicit overrides = .ok ls) {layer : Layer}
    (known : layer ∈ ls) :
    layer = .empty ∨ ∃ source : Source, source.layer? s explicit overrides = some layer := by
  have orEmpty (source : Source)
      (same : layer = (source.layer? s explicit overrides).getD .empty) :
      layer = .empty ∨ ∃ source : Source, source.layer? s explicit overrides = some layer := by
    cases own : source.layer? s explicit overrides with
    | none => exact .inl (by simpa [own] using same)
    | some _ => exact .inr ⟨source, by simpa [own, eq_comm] using same⟩
  obtain ⟨rfl, -⟩ := layers_eq_ok h
  simp only [List.mem_append, List.mem_cons, List.not_mem_nil, or_false, Option.mem_toList] at known
  obtain ((home | project) | named) | environment | own := known
  · exact orEmpty .home home
  · exact orEmpty .project project
  · exact .inr ⟨.explicit, named⟩
  · exact .inr ⟨.environment, environment ▸ rfl⟩
  · exact .inr ⟨.overrides, own ▸ rfl⟩

theorem isDistinct_of_layer? (distinct : overrides.IsDistinct) {source : Source} {layer : Layer}
    (h : source.layer? s explicit overrides = some layer) : layer.IsDistinct := by
  have ofFile {found : Option Found} (h : (found.bind tableIn?).map Layer.ofTable = some layer) :
      layer.IsDistinct := by
    obtain ⟨table, holds, rfl⟩ := Option.map_eq_some_iff.1 h
    obtain ⟨_, -, read⟩ := Option.bind_eq_some_iff.1 holds
    exact Entries.nodup_names_erase (isProper_tableIn? read).distinct
  cases source with
  | overrides => exact Option.some.inj h ▸ distinct
  | environment => exact Option.some.inj h ▸ isDistinct_entriesOf _
  | explicit | project | home => exact ofFile h

theorem value?_of_layer? (source : Source) (f : Field) :
    ((source.layer? s explicit overrides).bind fun layer => layer.fields.get? f.name)
      = source.value? s explicit overrides f := by
  cases source with
  | overrides => rfl
  | environment => exact (get?_entriesOf _ f _).trans (if_pos f.mem_all)
  | explicit | project | home =>
    simp only [Source.layer?, Source.value?, Option.bind_map, Function.comp_def, get?_ofTable]

theorem weights?_of_layer? (source : Source) :
    (source.layer? s explicit overrides).bind Layer.weights
      = source.weights? s explicit overrides := by
  cases source with
  | overrides | environment => rfl
  | explicit | project | home =>
    simp only [Source.layer?, Source.weights?, Option.bind_map]
    rfl

theorem mem_layers (h : layers s explicit overrides = .ok ls) {source : Source} {layer : Layer}
    (own : source.layer? s explicit overrides = some layer) : layer ∈ ls := by
  obtain ⟨rfl, -⟩ := layers_eq_ok h
  cases source with
  | overrides | environment => simp [← Option.some.inj own]
  | explicit | project | home => simp [own]

theorem mem_names_layer {source : Source} {name : String}
    (given : name ∈ source.names s explicit overrides) :
    name = "weights" ∨ ∃ layer, source.layer? s explicit overrides = some layer
      ∧ name ∈ layer.fields.map Prod.fst := by
  have ofTable {table : Option (Entries Datum)} (given : name ∈ (table.getD []).map Prod.fst) :
      name = "weights" ∨ ∃ layer, table.map Layer.ofTable = some layer
        ∧ name ∈ layer.fields.map Prod.fst := by
    cases table with
    | none => cases given
    | some table =>
      by_cases weights : name = "weights"
      · exact .inl weights
      · exact .inr ⟨_, rfl, Entries.mem_names_erase.2 ⟨given, weights⟩⟩
  cases source with
  | overrides => exact .inr ⟨_, rfl, given⟩
  | environment => cases given
  | explicit | project | home => exact ofTable given

/-! ### Sources that cannot be read -/

theorem follow_ne_tooLong (d : Directory) {names : List (List Char)}
    (short : ∀ name ∈ names, Directory.isLongName name = false) (here : List (List Char)) :
    d.follow here names ≠ .tooLong := by
  induction names generalizing here with
  | nil =>
    rw [Directory.follow]
    split <;> nofun
  | cons name rest ih =>
    obtain ⟨first, later⟩ := List.forall_mem_cons.1 short
    rw [Directory.follow]
    split
    · rw [if_neg (by simp [first])]
      exact ih later _
    · nofun
    · nofun

theorem find_ne_tooLong (d : Directory) {path : String}
    (whole : path.utf8ByteSize ≤ Directory.pathLimit)
    (short : ∀ name ∈ Directory.namesOf path.toList, Directory.isLongName name = false) :
    d.find path ≠ .tooLong := by
  rw [Directory.find, if_neg (Nat.not_lt.2 whole)]
  exact follow_ne_tooLong d short []

theorem named_eq_error
    (h : (explicit.mapM (explicitLayer s.files) : Except Failure (Option Layer)) = .error e) :
    e.IsInvalidSetting
      ∨ e = .longPath ∧ Source.explicit.found? s explicit = some .tooLong := by
  cases explicit with
  | none => cases h
  | some path =>
    have refused : explicitLayer s.files path = .error e := by
      rw [Option.mapM_some] at h
      cases read : explicitLayer s.files path with
      | error e' => simpa [read] using h
      | ok layer => simp [read] at h
    exact (explicitLayer_eq_error refused).imp_right (And.imp_right (congrArg some))

theorem layers_eq_error (h : layers s explicit overrides = .error e) :
    e.IsInvalidSetting
      ∨ e = .longPath ∧ Source.explicit.found? s explicit = some .tooLong := by
  have short {path : String} {d : Directory} {name : String} (fits : d.find name ≠ .tooLong)
      (refused : optionalLayer path (d.find name) = .error e) : e.IsInvalidSetting :=
    (optionalLayer_eq_error refused).resolve_right fun ⟨_, long⟩ => fits long
  simp only [layers, bind_eq_error_iff] at h
  obtain home | ⟨_, -, project | ⟨_, -, named | ⟨_, -, environment | ⟨_, -, last⟩⟩⟩⟩ := h
  · exact .inl (short (find_ne_tooLong _ (by decide) (by decide)) home)
  · exact .inl (short (find_ne_tooLong _ (by decide) (by decide)) project)
  · exact named_eq_error named
  · exact .inl (environmentLayer_eq_error environment)
  · cases last

end

end ComplexityMeter.Config
