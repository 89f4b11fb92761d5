import Mathlib.Data.List.Basic
import ComplexityMeter.Path

/-!
# What a path means

Without a look at any file, a path says where it starts, how many directories it goes up from there
and which names it then goes down. The normal form of a path spells this meaning and nothing else,
so two paths have the same normal form exactly when they mean the same.
-/

namespace ComplexityMeter.Path

/-! ### Segments -/

theorem segments_eq_splitOn (cs : List Char) : segments cs = cs.splitOn '/' := by
  induction cs with
  | nil => rfl
  | cons c rest ih =>
    rw [segments, List.splitOn_eq_splitOnP, List.splitOnP_cons_eq_if_modifyHead, ih,
      List.splitOn_eq_splitOnP]
    by_cases slash : c = '/'
    · simp [slash]
    · cases split : rest.splitOnP (· == '/') with
      | nil => exact absurd split (List.splitOnP_ne_nil _ rest)
      | cons first others => simp [slash]

theorem join_eq_intercalate (parts : List (List Char)) : join parts = ['/'].intercalate parts := by
  induction parts with
  | nil => rfl
  | cons first rest ih =>
    cases rest with
    | nil => simp [join]
    | cons second others =>
      rw [join, ih, List.intercalate_cons_cons]
      · simp
      · simp

theorem join_segments (cs : List Char) : join (segments cs) = cs := by
  rw [segments_eq_splitOn, join_eq_intercalate]
  exact List.intercalate_splitOn '/'

theorem segments_join {parts : List (List Char)} (some : parts ≠ [])
    (whole : ∀ s ∈ parts, '/' ∉ s) : segments (join parts) = parts := by
  rw [segments_eq_splitOn, join_eq_intercalate]
  exact List.splitOn_intercalate '/' whole some

theorem join_concat {parts : List (List Char)} (some : parts ≠ []) (last : List Char) :
    join (parts ++ [last]) = join parts ++ '/' :: last := by
  induction parts with
  | nil => exact absurd rfl some
  | cons first rest ih =>
    cases rest with
    | nil => rfl
    | cons second others =>
      change first ++ '/' :: join (second :: others ++ [last]) = _
      rw [ih (List.cons_ne_nil second others)]
      simp [join]

theorem segments_append (front back : List Char) :
    segments (front ++ '/' :: back) = segments front ++ segments back := by
  simp only [segments_eq_splitOn, List.splitOn_eq_splitOnP]
  exact List.splitOnP_append_cons front back rfl

theorem segments_slash (cs : List Char) : segments ('/' :: cs) = [] :: segments cs :=
  segments_append [] cs

theorem segments_of_notMem {cs : List Char} (whole : '/' ∉ cs) : segments cs = [cs] :=
  segments_join (List.cons_ne_nil cs []) (by simpa using whole)

theorem whole_segments (cs : List Char) : ∀ s ∈ segments cs, '/' ∉ s := by
  fun_induction segments cs with
  | case1 => simp
  | case2 rest ih => exact List.forall_mem_cons.2 ⟨List.not_mem_nil, ih⟩
  | case3 c rest other none ih => exact absurd none (segments_ne_nil rest)
  | case4 c rest other first others split ih =>
    rw [split] at ih
    obtain ⟨head, tail⟩ := List.forall_mem_cons.1 ih
    refine List.forall_mem_cons.2 ⟨?_, tail⟩
    simp [head, Ne.symm other]

/-! ### Names -/

/-- A segment that names something: it is not empty, and no dots that stand for a directory. -/
structure IsName (segment : List Char) : Prop where
  ne_nil : segment ≠ []
  ne_here : segment ≠ ['.']
  ne_up : segment ≠ up
  whole : '/' ∉ segment

instance (segment : List Char) : Decidable (IsName segment) :=
  decidable_of_iff (segment ≠ [] ∧ segment ≠ ['.'] ∧ segment ≠ up ∧ '/' ∉ segment)
    ⟨fun ⟨ne_nil, ne_here, ne_up, whole⟩ => ⟨ne_nil, ne_here, ne_up, whole⟩,
      fun h => ⟨h.ne_nil, h.ne_here, h.ne_up, h.whole⟩⟩

/-! ### Meanings -/

/-- What a path means: where it starts, how many directories it goes up from there, and the names
that it then goes down. -/
structure Meaning where
  absolute : Bool
  ups : Nat
  names : List (List Char)
  deriving DecidableEq, Repr

namespace Meaning

/-- The meaning after one more segment. Above the first name a relative path goes up one directory
more, and an absolute one stays where it is. -/
def move (m : Meaning) (segment : List Char) : Meaning :=
  if segment = [] ∨ segment = ['.'] then m
  else if segment = up then
    if m.names ≠ [] then { m with names := m.names.dropLast }
    else if m.absolute then m
    else { m with ups := m.ups + 1 }
  else { m with names := m.names ++ [segment] }

def start (cs : List Char) : Meaning :=
  ⟨isAbsolute cs, 0, []⟩

def ofChars (cs : List Char) : Meaning :=
  (segments cs).foldl move (start cs)

def parts (m : Meaning) : List (List Char) :=
  List.replicate m.ups up ++ m.names

def spelled (m : Meaning) : List Char :=
  if m.absolute then '/' :: join m.parts else join m.parts

/-- A meaning that some path has. -/
structure IsProper (m : Meaning) : Prop where
  names : ∀ s ∈ m.names, IsName s
  ups : m.absolute = true → m.ups = 0

variable {m : Meaning} {segment : List Char}

@[simp] theorem absolute_move : (m.move segment).absolute = m.absolute := by
  unfold move
  split_ifs <;> rfl

@[simp] theorem absolute_foldl_move (segments : List (List Char)) :
    (segments.foldl move m).absolute = m.absolute := by
  induction segments generalizing m with
  | nil => rfl
  | cons segment rest ih => rw [List.foldl_cons, ih, absolute_move]

theorem move_of_isName (h : IsName segment) :
    m.move segment = { m with names := m.names ++ [segment] } := by
  unfold move
  rw [if_neg (by simp [h.ne_nil, h.ne_here]), if_neg h.ne_up]

theorem parts_move (h : IsName segment) : (m.move segment).parts = m.parts ++ [segment] := by
  rw [move_of_isName h]
  simp [parts]

theorem IsProper.move (proper : m.IsProper) (whole : '/' ∉ segment) :
    (m.move segment).IsProper := by
  unfold Meaning.move
  split_ifs with here isUp named absolute
  · exact proper
  · exact ⟨fun s hs => proper.names s (List.dropLast_subset _ hs), proper.ups⟩
  · exact proper
  · exact ⟨proper.names, fun other => absurd other absolute⟩
  · rw [not_or] at here
    refine ⟨fun s hs => ?_, proper.ups⟩
    rcases List.mem_append.1 hs with known | new
    · exact proper.names s known
    · exact List.mem_singleton.1 new ▸ ⟨here.1, here.2, isUp, whole⟩

theorem IsProper.foldl_move {segments : List (List Char)} (proper : m.IsProper)
    (whole : ∀ s ∈ segments, '/' ∉ s) : (segments.foldl Meaning.move m).IsProper := by
  induction segments generalizing m with
  | nil => exact proper
  | cons segment rest ih =>
    obtain ⟨first, whole⟩ := List.forall_mem_cons.1 whole
    exact ih (proper.move first) whole

theorem isProper_start (cs : List Char) : (start cs).IsProper :=
  ⟨by simp [start], fun _ => rfl⟩

theorem isProper_ofChars (cs : List Char) : (ofChars cs).IsProper :=
  (isProper_start cs).foldl_move (whole_segments cs)

/-! ### Spelling a meaning -/

theorem IsProper.whole_parts (proper : m.IsProper) : ∀ s ∈ m.parts, '/' ∉ s := by
  intro s hs
  rcases List.mem_append.1 hs with above | named
  · rw [List.eq_of_mem_replicate above]
    decide
  · exact (proper.names s named).whole

theorem IsProper.solid_parts (proper : m.IsProper) : ∀ s ∈ m.parts, s ≠ [] ∧ s ≠ ['.'] := by
  intro s hs
  rcases List.mem_append.1 hs with above | named
  · rw [List.eq_of_mem_replicate above]
    decide
  · exact ⟨(proper.names s named).ne_nil, (proper.names s named).ne_here⟩

theorem IsProper.up_notMem_names (proper : m.IsProper) : up ∉ m.names :=
  fun h => (proper.names up h).ne_up rfl

/-- The normal form keeps the segments that spell the meaning, the last one first. -/
theorem enter_parts (proper : m.IsProper) (segment : List Char) :
    enter m.absolute m.parts.reverse segment = (m.move segment).parts.reverse := by
  unfold enter move
  by_cases stays : segment = [] ∨ segment = ['.']
  · rw [if_pos stays, if_pos (by simpa [staysPut] using stays)]
  rw [if_neg stays, if_neg (by simpa [staysPut] using stays)]
  by_cases isUp : segment = up
  · rw [if_pos isUp, if_pos isUp]
    rcases List.eq_nil_or_concat m.names with none | ⟨front, last, some⟩
    · cases ups : m.ups with
      | zero => cases absolute : m.absolute <;> simp [parts, none, ups]
      | succ n =>
        cases absolute : m.absolute with
        | true => simp [proper.ups absolute] at ups
        | false =>
          simp [parts, none, ups, List.replicate_succ, ← List.replicate_succ']
    · have lastName : last ≠ up := (proper.names last (by simp [some])).ne_up
      simp [parts, some, lastName]
  · rw [if_neg isUp, if_neg isUp]
    simp [parts]

theorem foldl_enter_parts (proper : m.IsProper) {segments : List (List Char)}
    (whole : ∀ s ∈ segments, '/' ∉ s) :
    segments.foldl (enter m.absolute) m.parts.reverse
      = (segments.foldl move m).parts.reverse := by
  induction segments generalizing m with
  | nil => rfl
  | cons segment rest ih =>
    obtain ⟨first, whole⟩ := List.forall_mem_cons.1 whole
    rw [List.foldl_cons, List.foldl_cons, enter_parts proper, ← ih (proper.move first) whole,
      absolute_move]

/-- The normal form of a path spells its meaning. -/
theorem normalForm_eq_spelled (cs : List Char) : normalForm cs = (ofChars cs).spelled := by
  have stack := foldl_enter_parts (isProper_start cs) (whole_segments cs)
  have absolute : (ofChars cs).absolute = isAbsolute cs := absolute_foldl_move _
  change (segments cs).foldl (enter (isAbsolute cs)) [] = (ofChars cs).parts.reverse at stack
  rw [normalForm, stack, List.reverse_reverse, spelled, absolute]

/-! ### Reading a spelled meaning -/

theorem foldl_move_replicate (n : Nat) (relative : m.absolute = false) (bare : m.names = []) :
    (List.replicate n up).foldl move m = { m with ups := m.ups + n } := by
  induction n generalizing m with
  | zero => rfl
  | succ n ih =>
    have first : m.move up = { m with ups := m.ups + 1 } := by simp [move, up, relative, bare]
    rw [List.replicate_succ, List.foldl_cons, first, ih]
    · simp only [Nat.add_assoc, Nat.add_comm 1]
    · exact relative
    · exact bare

theorem foldl_move_names {names : List (List Char)} (named : ∀ s ∈ names, IsName s) :
    names.foldl move m = { m with names := m.names ++ names } := by
  induction names generalizing m with
  | nil => simp
  | cons s rest ih =>
    obtain ⟨first, named⟩ := List.forall_mem_cons.1 named
    rw [List.foldl_cons, move_of_isName first, ih named]
    simp

theorem foldl_move_parts (proper : m.IsProper) :
    m.parts.foldl move ⟨m.absolute, 0, []⟩ = m := by
  rw [parts, List.foldl_append]
  cases absolute : m.absolute with
  | true =>
    rw [proper.ups absolute, List.replicate_zero, List.foldl_nil, foldl_move_names proper.names]
    simp [← absolute, ← proper.ups absolute]
  | false =>
    rw [foldl_move_replicate _ rfl rfl, foldl_move_names proper.names]
    simp [← absolute]

theorem names_spelled (proper : m.IsProper) : Path.names m.spelled = m.parts := by
  have body : Path.names (join m.parts) = m.parts := by
    by_cases none : m.parts = []
    · rw [none]
      rfl
    · rw [Path.names, segments_join none proper.whole_parts, List.filter_eq_self]
      intro s hs
      simp [staysPut, proper.solid_parts s hs]
  unfold spelled
  split_ifs
  · have slash : Path.names ('/' :: join m.parts) = Path.names (join m.parts) := by
      rw [Path.names, segments_slash]
      rfl
    rw [slash, body]
  · exact body

theorem isAbsolute_spelled (proper : m.IsProper) : isAbsolute m.spelled = m.absolute := by
  unfold spelled
  cases absolute : m.absolute with
  | true => rfl
  | false =>
    change isAbsolute (join m.parts) = false
    cases parts : m.parts with
    | nil => rfl
    | cons first rest =>
      have member : first ∈ m.parts := parts ▸ List.mem_cons_self
      obtain ⟨c, others, rfl⟩ := List.exists_cons_of_ne_nil (proper.solid_parts first member).1
      have other : c ≠ '/' := fun slash => proper.whole_parts _ member (slash ▸ List.mem_cons_self)
      cases rest <;> simpa [join, isAbsolute] using other

theorem ofChars_eq (cs : List Char) : ofChars cs = (Path.names cs).foldl move (start cs) := by
  have passes (m : Meaning) (segment : List Char) :
      (if !staysPut segment then m.move segment else m) = m.move segment := by
    cases stays : staysPut segment with
    | false => rfl
    | true => simp_all [staysPut, move]
  rw [Path.names, List.foldl_filter]
  simp only [passes]
  rfl

/-- Spelling a meaning loses nothing of it. -/
theorem ofChars_spelled (proper : m.IsProper) : ofChars m.spelled = m := by
  rw [ofChars_eq, names_spelled proper, start, isAbsolute_spelled proper, foldl_move_parts proper]

end Meaning

def meaning (path : String) : Meaning :=
  Meaning.ofChars path.toList

/-! ### Normal forms -/

/-- The segments of a path behind the slash in front; none if nothing stands there. -/
def segmentsBehind (cs : List Char) : List (List Char) :=
  let body := if isAbsolute cs then cs.tail else cs
  if body = [] then [] else segments body

/-- A path without empty and `.` segments behind the slash in front, and with `..` only at the start
of a relative path. -/
structure IsNormal (cs : List Char) : Prop where
  solid : ∀ s ∈ segmentsBehind cs, s ≠ [] ∧ s ≠ ['.']
  leading : ∃ n names, segmentsBehind cs = List.replicate n up ++ names ∧ up ∉ names
  rooted : isAbsolute cs = true → up ∉ segmentsBehind cs

section

variable {m : Meaning}

open Meaning

theorem join_eq_nil_iff (proper : m.IsProper) : join m.parts = [] ↔ m.parts = [] := by
  cases parts : m.parts with
  | nil => simp [join]
  | cons first rest =>
    have some : first ≠ [] := (proper.solid_parts first (parts ▸ List.mem_cons_self)).1
    cases rest <;> simp [join, some]

theorem segmentsBehind_spelled (proper : m.IsProper) : segmentsBehind m.spelled = m.parts := by
  have body : (if isAbsolute m.spelled then m.spelled.tail else m.spelled) = join m.parts := by
    rw [isAbsolute_spelled proper, spelled]
    cases m.absolute <;> rfl
  unfold segmentsBehind
  rw [body]
  dsimp only
  split_ifs with bare
  · exact ((join_eq_nil_iff proper).1 bare).symm
  · exact segments_join (mt (join_eq_nil_iff proper).2 bare) proper.whole_parts

theorem isNormal_spelled (proper : m.IsProper) : IsNormal m.spelled := by
  constructor
  · rw [segmentsBehind_spelled proper]
    exact proper.solid_parts
  · rw [segmentsBehind_spelled proper]
    exact ⟨m.ups, m.names, rfl, proper.up_notMem_names⟩
  · intro absolute
    rw [isAbsolute_spelled proper] at absolute
    rw [segmentsBehind_spelled proper, parts, proper.ups absolute]
    exact proper.up_notMem_names

end

variable {cs : List Char}

theorem whole_segmentsBehind (cs : List Char) : ∀ s ∈ segmentsBehind cs, '/' ∉ s := by
  unfold segmentsBehind
  dsimp only
  split_ifs
  · simp
  · exact whole_segments _
  · simp
  · exact whole_segments _

theorem join_segmentsBehind (cs : List Char) :
    join (segmentsBehind cs) = if isAbsolute cs then cs.tail else cs := by
  unfold segmentsBehind
  dsimp only
  split_ifs with absolute bare bare
  · exact bare.symm
  · exact join_segments _
  · exact bare.symm
  · exact join_segments _

/-- A path in normal form spells some meaning. -/
theorem IsNormal.exists_spelled (normal : IsNormal cs) :
    ∃ m : Meaning, m.IsProper ∧ m.spelled = cs := by
  obtain ⟨n, names, split, down⟩ := normal.leading
  refine ⟨⟨isAbsolute cs, n, names⟩, ⟨fun s hs => ?_, fun absolute => ?_⟩, ?_⟩
  · have member : s ∈ segmentsBehind cs := split ▸ List.mem_append_right _ hs
    exact ⟨(normal.solid s member).1, (normal.solid s member).2, fun isUp => down (isUp ▸ hs),
      whole_segmentsBehind cs s member⟩
  · have none := normal.rooted absolute
    cases n with
    | zero => rfl
    | succ n => simp [split, List.replicate_succ] at none
  · have body := join_segmentsBehind cs
    rw [split] at body
    unfold Meaning.spelled Meaning.parts
    dsimp only
    rw [body]
    cases absolute : isAbsolute cs with
    | false => rfl
    | true =>
      cases cs with
      | nil => cases absolute
      | cons c rest =>
        have slash : c = '/' := by simpa [isAbsolute] using absolute
        rw [slash]
        rfl

/-- The paths in normal form are those that their normal form leaves as they are. -/
theorem normalForm_eq_self_iff : normalForm cs = cs ↔ IsNormal cs := by
  constructor
  · intro fixed
    rw [← fixed, Meaning.normalForm_eq_spelled]
    exact isNormal_spelled (Meaning.isProper_ofChars cs)
  · intro normal
    obtain ⟨m, proper, rfl⟩ := normal.exists_spelled
    rw [Meaning.normalForm_eq_spelled, Meaning.ofChars_spelled proper]

theorem Meaning.ofChars_normalForm (cs : List Char) : ofChars (normalForm cs) = ofChars cs := by
  rw [normalForm_eq_spelled, ofChars_spelled (isProper_ofChars cs)]

theorem toList_normalize (path : String) : (normalize path).toList = (meaning path).spelled := by
  rw [normalize, String.toList_ofList, Meaning.normalForm_eq_spelled, meaning]

theorem meaning_normalize (path : String) : meaning (normalize path) = meaning path := by
  rw [meaning, normalize, String.toList_ofList]
  exact Meaning.ofChars_normalForm path.toList

theorem normalize_eq_iff {p q : String} : normalize p = normalize q ↔ meaning p = meaning q := by
  constructor
  · intro same
    rw [← meaning_normalize p, same, meaning_normalize]
  · intro same
    rw [← String.toList_inj, toList_normalize, toList_normalize, same]

/-- The normal form of a path is canonical: paths have the same one exactly when they mean the same,
it means what the path means, and it has no segment that could be left out. -/
theorem normalize_canonical :
    (∀ p q : String, normalize p = normalize q ↔ meaning p = meaning q)
    ∧ ∀ p : String, meaning (normalize p) = meaning p ∧ normalize (normalize p) = normalize p
        ∧ IsNormal (normalize p).toList := by
  refine ⟨fun p q => normalize_eq_iff, fun p => ⟨meaning_normalize p, ?_, ?_⟩⟩
  · exact normalize_eq_iff.2 (meaning_normalize p)
  · rw [toList_normalize]
    exact isNormal_spelled (Meaning.isProper_ofChars _)

example : meaning "/../a//./b/../c" = ⟨true, 0, ["a".toList, "c".toList]⟩ := by decide

example : normalize "a/../../b/" = "../b" := by decide

end ComplexityMeter.Path
