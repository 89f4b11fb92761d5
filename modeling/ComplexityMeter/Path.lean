/-!
# Paths

Paths are texts whose segments are separated by slashes. Two forms are produced: the tidy form
drops empty and `.` segments only, as messages show a path; the normal form also resolves `..`
segments without looking at any file, so that two spellings of a path can be compared as texts.
-/

namespace ComplexityMeter.Path

/-- The texts between the slashes; there is always at least one. -/
def segments : List Char → List (List Char)
  | [] => [[]]
  | c :: rest =>
    if c = '/' then [] :: segments rest
    else
      match segments rest with
      | [] => [[c]]
      | first :: others => (c :: first) :: others

theorem segments_ne_nil (cs : List Char) : segments cs ≠ [] := by
  cases cs with
  | nil => simp [segments]
  | cons c rest =>
    simp only [segments]
    split
    · simp
    · split <;> simp

def join : List (List Char) → List Char
  | [] => []
  | [segment] => segment
  | segment :: rest => segment ++ '/' :: join rest

def isAbsolute (cs : List Char) : Bool :=
  cs.head? = some '/'

/-- An empty or `.` segment stands for the place where it is. -/
def staysPut (segment : List Char) : Bool :=
  segment = [] || segment = ['.']

def up : List Char := ['.', '.']

/-- The segments of the normal form after one more segment; the last segment stands first. Going
up removes a name; with no name left it is kept in a relative path and dropped in an absolute
one. -/
def enter (absolute : Bool) (stack : List (List Char)) (segment : List Char) :
    List (List Char) :=
  if staysPut segment then stack
  else if segment = up then
    match stack with
    | last :: above => if last = up then (if absolute then stack else up :: stack) else above
    | [] => if absolute then [] else [up]
  else segment :: stack

def normalForm (cs : List Char) : List Char :=
  let absolute := isAbsolute cs
  let joined := join ((segments cs).foldl (enter absolute) []).reverse
  if absolute then '/' :: joined else joined

/-- The normal form of a path: no empty or `.` segments, and `..` only at the start of a relative
path. -/
def normalize (path : String) : String :=
  String.ofList (normalForm path.toList)

def directory (cs : List Char) : List Char :=
  (cs.reverse.dropWhile (· ≠ '/')).reverse

/-- What follows the last slash, slashes at the end not counted. -/
def lastSegment (cs : List Char) : List Char :=
  ((cs.reverse.dropWhile (· = '/')).takeWhile (· ≠ '/')).reverse

def knownExtensions : List (List Char) :=
  [".ts".toList, ".tsx".toList, ".js".toList, ".jsx".toList, ".mts".toList, ".mjs".toList]

/-- An import names a directory when it ends in a slash or in a segment of dots. -/
def namesDirectory (specifier : List Char) : Bool :=
  specifier.getLast? = some '/' || lastSegment specifier = ['.'] || lastSegment specifier = up

def resolveFrom (base specifier defaultFile : List Char) : List Char :=
  let resolved := normalForm (directory base ++ specifier)
  if namesDirectory specifier then
    if resolved = [] ∨ resolved = ['/'] then resolved ++ defaultFile
    else resolved ++ '/' :: defaultFile
  else if knownExtensions.any fun ending => ending.isSuffixOf resolved then resolved
  else resolved ++ ".ts".toList

/-- The file that an import in the file `base` names: the default file of a directory, or a file
that gets the ending `.ts` unless it has a known one. -/
def resolve (base specifier defaultFile : String) : String :=
  String.ofList (resolveFrom base.toList specifier.toList defaultFile.toList)

/-- Whether an import names the directory that all paths start from. -/
def namesRoot (base specifier : String) : Bool :=
  namesDirectory specifier.toList
    && [[], ['/']].contains (normalForm (directory base.toList ++ specifier.toList))

/-- The slashes that a tidy path starts with: two stay two, more become one. -/
def rootText (cs : List Char) : List Char :=
  match (cs.takeWhile (· = '/')).length with
  | 0 => []
  | 2 => ['/', '/']
  | _ => ['/']

def names (cs : List Char) : List (List Char) :=
  (segments cs).filter fun segment => !staysPut segment

/-- A path without empty and `.` segments; the path that names nothing is `.`. -/
def tidy (path : String) : String :=
  let text := rootText path.toList ++ join (names path.toList)
  if text.isEmpty then "." else String.ofList text

/-- The ending of the last name, from its last dot, unless the dot is first or last in it. -/
def extension (path : String) : List Char :=
  let name := ((names path.toList).getLast?).getD []
  let ending := (name.reverse.takeWhile (· ≠ '.')).reverse
  if ending.isEmpty ∨ name.length ≤ ending.length + 1 then [] else '.' :: ending

end ComplexityMeter.Path
