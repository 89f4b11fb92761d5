import ComplexityMeter.Proofs.Config.Acceptance
import ComplexityMeter.Proofs.Path.Meaning

/-!
# Files that imports name

The file that an import names depends on what the path of the importing file means, not on how it is
spelled, and it comes in normal form, so that it can be compared as a text with the paths of the
files of a survey.
-/

namespace ComplexityMeter.Path

/-! ### Behind the last slash -/

/-- What stands behind the last slash. -/
def fileName (cs : List Char) : List Char :=
  (segments cs).getLast (segments_ne_nil cs)

theorem slash_cases (cs : List Char) :
    '/' ∉ cs ∨ ∃ front name, cs = front ++ '/' :: name ∧ '/' ∉ name := by
  by_cases slash : '/' ∈ cs.reverse
  · obtain ⟨back, before, split, whole⟩ := List.eq_append_cons_of_mem slash
    refine .inr ⟨before.reverse, back.reverse, ?_, by simpa using whole⟩
    rw [← List.reverse_reverse cs, split]
    simp
  · exact .inl (by simpa using slash)

section

variable {cs front name : List Char}

theorem fileName_of_notMem (whole : '/' ∉ cs) : fileName cs = cs := by
  simp [fileName, segments_of_notMem whole]

theorem fileName_append (whole : '/' ∉ name) : fileName (front ++ '/' :: name) = name := by
  simp [fileName, segments_append, segments_of_notMem whole]

theorem whole_fileName (cs : List Char) : '/' ∉ fileName cs :=
  whole_segments cs _ (List.getLast_mem _)

theorem ne_slash_of_mem_reverse (whole : '/' ∉ name) :
    ∀ c ∈ name.reverse, decide (c ≠ '/') = true := by
  intro c hc
  exact decide_eq_true fun slash => whole (slash ▸ List.mem_reverse.1 hc)

theorem directory_of_notMem (whole : '/' ∉ cs) : directory cs = [] := by
  rw [directory, ← List.append_nil cs.reverse,
    List.dropWhile_append_of_pos (ne_slash_of_mem_reverse whole)]
  rfl

theorem directory_append (whole : '/' ∉ name) :
    directory (front ++ '/' :: name) = front ++ ['/'] := by
  rw [directory, List.reverse_append, List.reverse_cons, List.append_assoc,
    List.dropWhile_append_of_pos (ne_slash_of_mem_reverse whole)]
  simp

theorem segments_directory_append (cs back : List Char) :
    segments (directory cs ++ back) = (segments cs).dropLast ++ segments back := by
  rcases slash_cases cs with whole | ⟨front, name, rfl, whole⟩
  · simp [directory_of_notMem whole, segments_of_notMem whole]
  · rw [directory_append whole, List.append_assoc, List.singleton_append, segments_append,
      segments_append, segments_of_notMem whole, List.dropLast_concat]

theorem fileName_directory_append (cs back : List Char) :
    fileName (directory cs ++ back) = fileName back := by
  simp only [fileName, segments_directory_append]
  exact List.getLast_append_of_ne_nil _ (segments_ne_nil back)

theorem isAbsolute_directory_append {back : List Char} (relative : isAbsolute back = false) :
    isAbsolute (directory cs ++ back) = isAbsolute cs := by
  rcases slash_cases cs with whole | ⟨front, name, rfl, whole⟩
  · rw [directory_of_notMem whole, List.nil_append, relative]
    cases cs with
    | nil => rfl
    | cons c rest =>
      have other : c ≠ '/' := fun slash => whole (slash ▸ List.mem_cons_self)
      simp [isAbsolute, other]
  · rw [directory_append whole]
    cases front <;> simp [isAbsolute]

theorem isAbsolute_append {back : List Char} (some : cs ≠ []) :
    isAbsolute (cs ++ back) = isAbsolute cs := by
  cases cs with
  | nil => exact absurd rfl some
  | cons c rest => rfl

theorem segments_append_of_notMem {ending : List Char} (whole : '/' ∉ ending) :
    segments (cs ++ ending) = (segments cs).dropLast ++ [fileName cs ++ ending] := by
  have joined {name : List Char} (last : '/' ∉ name) :
      segments (name ++ ending) = [name ++ ending] :=
    segments_of_notMem (by simp [last, whole])
  rcases slash_cases cs with alone | ⟨front, name, rfl, last⟩
  · rw [joined alone, fileName_of_notMem alone, segments_of_notMem alone]
    rfl
  · rw [List.append_assoc, List.cons_append, segments_append, segments_append, joined last,
      segments_of_notMem last, List.dropLast_concat, fileName_append last]

theorem fileName_append_of_notMem {ending : List Char} (whole : '/' ∉ ending) :
    fileName (cs ++ ending) = fileName cs ++ ending := by
  simp [fileName, segments_append_of_notMem whole]

theorem suffix_iff_suffix_fileName {ending : List Char} (whole : '/' ∉ ending) :
    ending <:+ cs ↔ ending <:+ fileName cs := by
  rcases slash_cases cs with alone | ⟨front, name, rfl, last⟩
  · rw [fileName_of_notMem alone]
  · rw [fileName_append last]
    constructor
    · intro ends
      have slashed : '/' :: name <:+ front ++ '/' :: name := List.suffix_append _ _
      rcases List.suffix_or_suffix_of_suffix ends slashed with inside | beyond
      · rcases List.suffix_cons_iff.1 inside with rfl | inside
        · exact absurd List.mem_cons_self whole
        · exact inside
      · exact absurd (beyond.subset List.mem_cons_self) whole
    · intro ends
      exact ends.trans ((List.suffix_cons '/' name).trans (List.suffix_append front _))

theorem lastSegment_eq_fileName (noSlash : cs.getLast? ≠ some '/') :
    lastSegment cs = fileName cs := by
  have first : cs.reverse.dropWhile (· = '/') = cs.reverse := by
    rw [← List.head?_reverse] at noSlash
    cases reversed : cs.reverse with
    | nil => rfl
    | cons c rest =>
      have other : c ≠ '/' := by simpa [reversed] using noSlash
      simp [other]
  rw [lastSegment, first]
  rcases slash_cases cs with whole | ⟨front, name, rfl, whole⟩
  · rw [fileName_of_notMem whole, ← List.append_nil cs.reverse,
      List.takeWhile_append_of_pos (ne_slash_of_mem_reverse whole)]
    simp
  · rw [fileName_append whole, List.reverse_append, List.reverse_cons, List.append_assoc,
      List.takeWhile_append_of_pos (ne_slash_of_mem_reverse whole)]
    simp

end

/-- An import of a directory: it ends in a slash, or its last segment is made of dots that stand for
a directory. -/
def IsDirectoryForm (specifier : List Char) : Prop :=
  specifier.getLast? = some '/' ∨ fileName specifier = ['.'] ∨ fileName specifier = up

instance (specifier : List Char) : Decidable (IsDirectoryForm specifier) :=
  inferInstanceAs (Decidable (_ ∨ _ ∨ _))

theorem namesDirectory_iff {specifier : List Char} :
    namesDirectory specifier = true ↔ IsDirectoryForm specifier := by
  unfold namesDirectory IsDirectoryForm
  by_cases slash : specifier.getLast? = some '/'
  · simp [slash]
  · simp [slash, lastSegment_eq_fileName slash]

theorem isName_fileName {specifier : List Char} (some : specifier ≠ [])
    (file : ¬ IsDirectoryForm specifier) : IsName (fileName specifier) := by
  unfold IsDirectoryForm at file
  rw [not_or, not_or] at file
  obtain ⟨noSlash, notHere, notUp⟩ := file
  refine ⟨fun none => ?_, notHere, notUp, whole_fileName specifier⟩
  rcases slash_cases specifier with whole | ⟨front, name, rfl, whole⟩
  · rw [fileName_of_notMem whole] at none
    exact some none
  · rw [fileName_append whole] at none
    exact noSlash (by simp [none])

/-! ### Meanings of paths with a file name -/

/-- What the directory of a path means. -/
def folder (cs : List Char) : Meaning :=
  (segments cs).dropLast.foldl Meaning.move (Meaning.start cs)

section

variable {cs : List Char}

theorem ofChars_eq_move_folder (cs : List Char) :
    Meaning.ofChars cs = (folder cs).move (fileName cs) := by
  have split : segments cs = (segments cs).dropLast ++ [fileName cs] :=
    (List.dropLast_append_getLast (segments_ne_nil cs)).symm
  rw [Meaning.ofChars, split, List.foldl_append]
  rfl

theorem isProper_folder (cs : List Char) : (folder cs).IsProper :=
  (Meaning.isProper_start cs).foldl_move fun s hs =>
    whole_segments cs s (List.dropLast_subset _ hs)

/-- The directory of a path with a file name means what the path means, less the last name. -/
theorem folder_eq (named : IsName (fileName cs)) :
    folder cs = { Meaning.ofChars cs with names := (Meaning.ofChars cs).names.dropLast } := by
  rw [ofChars_eq_move_folder, Meaning.move_of_isName named]
  simp

theorem ofChars_directory_append {back : List Char} (relative : isAbsolute back = false) :
    Meaning.ofChars (directory cs ++ back) = (segments back).foldl Meaning.move (folder cs) := by
  rw [Meaning.ofChars, segments_directory_append, List.foldl_append, Meaning.start,
    isAbsolute_directory_append relative]
  rfl

theorem fileName_spelled {m : Meaning} (proper : m.IsProper) {front : List (List Char)}
    {last : List Char} (parts : m.parts = front ++ [last]) : fileName m.spelled = last := by
  have some : m.parts ≠ [] := by simp [parts]
  have body := segments_join some proper.whole_parts
  have all : segments m.spelled = (if m.absolute then [[]] else []) ++ m.parts := by
    unfold Meaning.spelled
    split_ifs
    · rw [segments_slash, body]
      rfl
    · exact body
  simp [fileName, all, parts]

/-- A normal form has the file name of the path. -/
theorem fileName_normalForm (named : IsName (fileName cs)) :
    fileName (normalForm cs) = fileName cs := by
  have parts : (Meaning.ofChars cs).parts = (folder cs).parts ++ [fileName cs] := by
    rw [ofChars_eq_move_folder, Meaning.parts_move named]
  rw [Meaning.normalForm_eq_spelled]
  exact fileName_spelled (Meaning.isProper_ofChars cs) parts

/-- What a relative import leads to depends on what the path of the importing file means. -/
theorem normalForm_directory_append {back : List Char} (named : IsName (fileName cs))
    (relative : isAbsolute back = false) :
    normalForm (directory (normalForm cs) ++ back) = normalForm (directory cs ++ back) := by
  have named' : IsName (fileName (normalForm cs)) := (fileName_normalForm named).symm ▸ named
  rw [Meaning.normalForm_eq_spelled, Meaning.normalForm_eq_spelled (directory cs ++ back),
    ofChars_directory_append relative, ofChars_directory_append relative, folder_eq named,
    folder_eq named', Meaning.ofChars_normalForm]

end

/-- Where the path of the importing file ends in a name, the file that a relative import names is
the same whether the path is given in normal form or not, and so is the refusal of a default file
that cannot stand alone. -/
theorem resolve_normalize (c : Config) (base specifier : String)
    (named : IsName (fileName base.toList)) (relative : specifier.toList.head? = some '.') :
    c.resolve base specifier = c.resolve (normalize base) specifier := by
  have notRoot : isAbsolute specifier.toList = false := by
    rw [isAbsolute, relative]
    decide
  have target := normalForm_directory_append named notRoot
  have spelled : (normalize base).toList = normalForm base.toList := String.toList_ofList
  have file (default : String) :
      resolve base specifier default = resolve (normalize base) specifier default := by
    simp only [resolve, resolveFrom, spelled, target]
  have root : namesRoot base specifier = namesRoot (normalize base) specifier := by
    simp only [namesRoot, spelled, target]
  rw [Config.resolve, Config.resolve, file, root]

theorem resolve_normalize_upward :
    IsName (fileName "/a/../..//lib/x.ts".toList)
    ∧ (Config.default.resolve "/a/../..//lib/x.ts" "./../b").toOption = some "/b.ts"
    ∧ (Config.default.resolve (normalize "/a/../..//lib/x.ts") "./../b").toOption
      = some "/b.ts" := by
  have named : IsName (fileName "/a/../..//lib/x.ts".toList) := by decide
  have target : (Config.default.resolve "/a/../..//lib/x.ts" "./../b").toOption
      = some "/b.ts" := by
    decide
  refine ⟨named, target, ?_⟩
  rw [← resolve_normalize Config.default _ "./../b" named (by decide)]
  exact target

/-! ### Texts put behind a normal form -/

theorem join_concat_append (parts : List (List Char)) (last ending : List Char) :
    join (parts ++ [last ++ ending]) = join (parts ++ [last]) ++ ending := by
  by_cases none : parts = []
  · simp [none, join]
  · simp [join_concat none]

section

variable {m : Meaning}

theorem spelled_eq_root_iff (proper : m.IsProper) :
    m.spelled = [] ∨ m.spelled = ['/'] ↔ m.parts = [] := by
  rw [← join_eq_nil_iff proper]
  have relative := Meaning.isAbsolute_spelled proper
  unfold Meaning.spelled at relative ⊢
  cases absolute : m.absolute with
  | true => simp
  | false =>
    rw [absolute] at relative
    have noRoot : join m.parts ≠ ['/'] := by
      intro slash
      simp [slash, isAbsolute] at relative
    simp [noRoot]

/-- A name goes on behind a slash, unless the path names nothing yet. -/
theorem spelled_move {name : List Char} (proper : m.IsProper) (named : IsName name) :
    (m.move name).spelled = if m.spelled = [] ∨ m.spelled = ['/'] then m.spelled ++ name
      else m.spelled ++ '/' :: name := by
  have body : (m.move name).spelled
      = if m.absolute then '/' :: join (m.parts ++ [name]) else join (m.parts ++ [name]) := by
    rw [Meaning.spelled, Meaning.parts_move named, Meaning.absolute_move]
  rw [body]
  by_cases none : m.parts = []
  · rw [if_pos ((spelled_eq_root_iff proper).2 none), none, Meaning.spelled, none]
    cases m.absolute <;> rfl
  · rw [if_neg (mt (spelled_eq_root_iff proper).1 none), join_concat none, Meaning.spelled]
    cases m.absolute <;> rfl

end

section

variable {cs ending : List Char}

theorem normalForm_append (named : IsName (fileName cs)) (named' : IsName (fileName cs ++ ending)) :
    normalForm (cs ++ ending) = normalForm cs ++ ending := by
  have whole : '/' ∉ ending := fun slash => named'.whole (List.mem_append_right _ slash)
  have some : cs ≠ [] := by
    rintro rfl
    exact named.ne_nil rfl
  have back : Meaning.ofChars (cs ++ ending) = (folder cs).move (fileName cs ++ ending) := by
    rw [Meaning.ofChars, segments_append_of_notMem whole, List.foldl_append, Meaning.start,
      isAbsolute_append some]
    rfl
  rw [Meaning.normalForm_eq_spelled, Meaning.normalForm_eq_spelled, back,
    ofChars_eq_move_folder cs, spelled_move (isProper_folder cs) named,
    spelled_move (isProper_folder cs) named']
  split_ifs <;> simp

theorem isName_append_ts (whole : '/' ∉ cs) : IsName (cs ++ ".ts".toList) := by
  have long : 3 ≤ (cs ++ ".ts".toList).length := by simp
  refine ⟨fun none => ?_, fun here => ?_, fun isUp => ?_, by simp [whole]⟩
  · rw [none] at long
    exact absurd long (by decide)
  · rw [here] at long
    exact absurd long (by decide)
  · rw [isUp] at long
    exact absurd long (by decide)

/-- A source ending makes any last segment a name, also one that stands for a directory. -/
theorem isNormal_append_ts (normal : IsNormal cs) : IsNormal (cs ++ ".ts".toList) := by
  obtain ⟨m, proper, rfl⟩ := normal.exists_spelled
  rcases List.eq_nil_or_concat m.names with none | ⟨front, last, some⟩
  · cases ups : m.ups with
    | zero =>
      have bare : m.spelled = [] ∨ m.spelled = ['/'] := by
        rw [spelled_eq_root_iff proper, Meaning.parts, ups, none]
        rfl
      have named : IsName ".ts".toList := by decide
      have first := spelled_move proper named
      rw [if_pos bare] at first
      rw [← first]
      exact isNormal_spelled (proper.move named.whole)
    | succ n =>
      have relative : m.absolute = false := by
        cases absolute : m.absolute with
        | false => rfl
        | true => simp [proper.ups absolute] at ups
      have above : Meaning.IsProper ⟨false, n, []⟩ := ⟨by simp, by simp⟩
      have named : IsName (up ++ ".ts".toList) := isName_append_ts (by decide)
      have last : m.spelled ++ ".ts".toList
          = (Meaning.move ⟨false, n, []⟩ (up ++ ".ts".toList)).spelled := by
        rw [Meaning.move_of_isName named]
        simp only [Meaning.spelled, Meaning.parts, relative, none, ups, List.replicate_succ',
          List.append_nil, List.nil_append, Bool.false_eq_true, if_false]
        exact (join_concat_append _ _ _).symm
      rw [last]
      exact isNormal_spelled (above.move named.whole)
  · have parts : m.parts = List.replicate m.ups up ++ front ++ [last] := by
      simp [Meaning.parts, some]
    have named : IsName (fileName m.spelled) := by
      rw [fileName_spelled proper parts]
      exact proper.names last (by simp [some])
    rw [← normalForm_eq_self_iff,
      normalForm_append named (isName_append_ts (whole_fileName m.spelled)),
      normalForm_eq_self_iff.2 normal]

end

/-! ### The file that an import names -/

def IsSource (cs : List Char) : Prop :=
  ∃ ending ∈ knownExtensions, ending <:+ cs

section

variable {cs base specifier file : List Char}

theorem any_isSuffixOf_iff :
    (knownExtensions.any fun ending => ending.isSuffixOf cs) = true ↔ IsSource cs := by
  simp [IsSource]

instance (cs : List Char) : Decidable (IsSource cs) :=
  decidable_of_iff _ any_isSuffixOf_iff

theorem isSource_iff_fileName : IsSource cs ↔ IsSource (fileName cs) := by
  have whole : ∀ ending ∈ knownExtensions, '/' ∉ ending := by decide
  constructor
  · rintro ⟨ending, known, ends⟩
    exact ⟨ending, known, (suffix_iff_suffix_fileName (whole ending known)).1 ends⟩
  · rintro ⟨ending, known, ends⟩
    exact ⟨ending, known, (suffix_iff_suffix_fileName (whole ending known)).2 ends⟩

theorem isSource_append_ts : IsSource (cs ++ ".ts".toList) :=
  ⟨".ts".toList, by decide, List.suffix_append cs _⟩

theorem resolveFrom_of_directory (form : IsDirectoryForm specifier) (named : IsName file) :
    resolveFrom base specifier file
      = ((Meaning.ofChars (directory base ++ specifier)).move file).spelled := by
  rw [resolveFrom, if_pos (namesDirectory_iff.2 form), Meaning.normalForm_eq_spelled,
    spelled_move (Meaning.isProper_ofChars _) named]

theorem resolveFrom_of_file (form : ¬ IsDirectoryForm specifier) :
    resolveFrom base specifier file
      = if IsSource (normalForm (directory base ++ specifier))
        then normalForm (directory base ++ specifier)
        else normalForm (directory base ++ specifier) ++ ".ts".toList := by
  rw [resolveFrom, if_neg (mt namesDirectory_iff.1 form)]
  simp only [any_isSuffixOf_iff]

theorem isSource_resolveFrom (form : ¬ IsDirectoryForm specifier) :
    IsSource (resolveFrom base specifier file) := by
  rw [resolveFrom_of_file form]
  split_ifs with source
  · exact source
  · exact isSource_append_ts

theorem fileName_resolveFrom (form : IsDirectoryForm specifier) (named : IsName file) :
    fileName (resolveFrom base specifier file) = file := by
  rw [resolveFrom_of_directory form named]
  have proper := Meaning.isProper_ofChars (directory base ++ specifier)
  exact fileName_spelled (proper.move named.whole) (Meaning.parts_move named)

theorem isNormal_resolveFrom (named : IsName file) :
    IsNormal (resolveFrom base specifier file) := by
  have proper := Meaning.isProper_ofChars (directory base ++ specifier)
  by_cases form : IsDirectoryForm specifier
  · rw [resolveFrom_of_directory form named]
    exact isNormal_spelled (proper.move named.whole)
  · have target : IsNormal (normalForm (directory base ++ specifier)) := by
      rw [Meaning.normalForm_eq_spelled]
      exact isNormal_spelled proper
    rw [resolveFrom_of_file form]
    split_ifs
    · exact target
    · exact isNormal_append_ts target

theorem resolveFrom_ne_nil (named : IsName file) : resolveFrom base specifier file ≠ [] := by
  intro none
  by_cases form : IsDirectoryForm specifier
  · have last : fileName (resolveFrom base specifier file) = file :=
      fileName_resolveFrom form named
    rw [none] at last
    exact named.ne_nil last.symm
  · have source : IsSource (resolveFrom base specifier file) := isSource_resolveFrom form
    rw [none] at source
    exact absurd source (by decide)

theorem not_isDirectoryForm_append_ts : ¬ IsDirectoryForm (specifier ++ ".ts".toList) := by
  have named : IsName (fileName (specifier ++ ".ts".toList)) := by
    rw [fileName_append_of_notMem (by decide)]
    exact isName_append_ts (whole_fileName specifier)
  unfold IsDirectoryForm
  rw [not_or, not_or]
  exact ⟨by simp, named.ne_here, named.ne_up⟩

/-- The ending of a source file may be left out where the specifier has none. -/
theorem resolveFrom_append_ts (some : specifier ≠ []) (form : ¬ IsDirectoryForm specifier)
    (bare : ¬ IsSource specifier) :
    resolveFrom base specifier file = resolveFrom base (specifier ++ ".ts".toList) file := by
  have named : IsName (fileName (directory base ++ specifier)) := by
    rw [fileName_directory_append]
    exact isName_fileName some form
  have longer : normalForm (directory base ++ (specifier ++ ".ts".toList))
      = normalForm (directory base ++ specifier) ++ ".ts".toList := by
    rw [← List.append_assoc]
    exact normalForm_append named (isName_append_ts named.whole)
  have plain : ¬ IsSource (normalForm (directory base ++ specifier)) := by
    rw [isSource_iff_fileName, fileName_normalForm named, fileName_directory_append,
      ← isSource_iff_fileName]
    exact bare
  rw [resolveFrom_of_file form, if_neg plain, resolveFrom_of_file not_isDirectoryForm_append_ts,
    longer, if_pos isSource_append_ts]

end

/-- The text that an accepted configuration gives as default file is a name, if it is not made of
the dots that stand for a directory. -/
theorem isName_defaultFile {fields : Entries Datum} {weights : Option Config.WeightsGiven}
    {c : Config} {file : String} (accepted : Config.ofEntries fields weights = .ok c)
    (given : c.value .defaultFile = .text file) (plain : file ≠ "." ∧ file ≠ "..") :
    IsName file.toList := by
  have met := Config.Demand.isMet_of_check (Config.check_of_accepted accepted .defaultFile)
  change Config.Demand.isMet .bareFileName (c.value .defaultFile) = .ok true at met
  rw [given] at met
  have bare : file ≠ "" ∧ '/' ∉ file.toList := by
    by_cases none : file = ""
    · simp [Config.Demand.isMet, Value.isTruthy, none] at met
    · refine ⟨none, ?_⟩
      simpa [Config.Demand.isMet, Config.Demand.holdsSlash, Value.isTruthy, Except.map, none]
        using met
  refine ⟨fun none => bare.1 ?_, fun here => plain.1 ?_, fun isUp => plain.2 ?_, bare.2⟩
  · exact String.toList_inj.1 none
  · exact String.toList_inj.1 here
  · exact String.toList_inj.1 isUp

/-- An accepted configuration with a text as default file, other than the dots that stand for a
directory, gives every import a file in normal form. An import of a directory names the default file
there; any other import names a source file, and its ending `.ts` may be left out. -/
theorem resolve_isNormal {fields : Entries Datum} {weights : Option Config.WeightsGiven}
    {c : Config} {file : String} (accepted : Config.ofEntries fields weights = .ok c)
    (given : c.value .defaultFile = .text file) (plain : file ≠ "." ∧ file ≠ "..")
    (base specifier : String) :
    (∃ path, c.resolve base specifier = .ok path ∧ path ≠ "" ∧ normalize path = path
      ∧ (IsDirectoryForm specifier.toList → fileName path.toList = file.toList)
      ∧ (¬ IsDirectoryForm specifier.toList → IsSource path.toList))
    ∧ (specifier ≠ "" → ¬ IsDirectoryForm specifier.toList → ¬ IsSource specifier.toList →
        c.resolve base specifier = c.resolve base (specifier ++ ".ts")) := by
  have named := isName_defaultFile accepted given plain
  have resolves (specifier : String) : c.resolve base specifier
      = .ok (String.ofList (resolveFrom base.toList specifier.toList file.toList)) := by
    rw [Config.resolve, Config.notAlone, given]
    rfl
  refine ⟨⟨_, resolves specifier, ?_, ?_, fun form => ?_, fun form => ?_⟩, fun some form bare => ?_⟩
  · intro none
    have empty := congrArg String.toList none
    rw [String.toList_ofList] at empty
    exact resolveFrom_ne_nil named empty
  · rw [normalize, String.toList_ofList, normalForm_eq_self_iff.2 (isNormal_resolveFrom named)]
  · rw [String.toList_ofList]
    exact fileName_resolveFrom form named
  · rw [String.toList_ofList]
    exact isSource_resolveFrom form
  · have some : specifier.toList ≠ [] := fun none => some (String.toList_inj.1 none)
    rw [resolves, resolves, String.toList_append, resolveFrom_append_ts some form bare]

theorem resolve_isNormal_index :
    let given : Entries Datum := [("default_module_file", .text "index.ts")]
    let config : Config := ⟨Config.valueIn given, Config.default.weights⟩
    Config.ofEntries given none = .ok config
    ∧ config.value .defaultFile = .text "index.ts"
    ∧ (∃ path, config.resolve "src/a.ts" "../../lib/." = .ok path ∧ normalize path = path
        ∧ fileName path.toList = "index.ts".toList)
    ∧ config.resolve "src/a.ts" "./b.test" = config.resolve "src/a.ts" "./b.test.ts" := by
  intro given config
  have accepted : Config.ofEntries given none = .ok config := rfl
  have file : config.value .defaultFile = .text "index.ts" := rfl
  have normal := resolve_isNormal accepted file (by decide) "src/a.ts"
  obtain ⟨path, resolved, -, fixed, inDirectory, -⟩ := (normal "../../lib/.").1
  refine ⟨accepted, file, ⟨path, resolved, fixed, inDirectory (by decide)⟩, ?_⟩
  exact (normal "./b.test").2 (by decide) (by decide) (by decide)

end ComplexityMeter.Path
