import ComplexityMeter.Failure
import ComplexityMeter.Path
import ComplexityMeter.Text.Lines
import ComplexityMeter.Text.Utf8

/-!
# Files

A run sees files below two directories, the home directory and the working directory. Both exist, and
access to what is in them is never denied. A file holds octets; reading it as a source text can fail
at the file system or at the decoding, and either way the failure says why.
-/

namespace ComplexityMeter

/-- What a file system holds under a name. -/
inductive Content where
  | file (octets : List Nat)
  | directory
  deriving DecidableEq, Repr

/-- The entries below a directory, by the names that lead to them. A directory exists as soon as
there is an entry below it. -/
abbrev Directory := List (List (List Char) × Content)

structure Files where
  home : Directory
  working : Directory

/-- What is found at a path; access is never denied. -/
inductive Found where
  | file (octets : List Nat)
  | directory
  | absent
  /-- The path goes on below a file. -/
  | belowFile
  /-- A name or the whole path is longer than a file system takes. -/
  | tooLong
  deriving DecidableEq, Repr

namespace Directory

def root : List Char := ['/']

def namesOf (cs : List Char) : List (List Char) :=
  (if Path.isAbsolute cs then [root] else []) ++ Path.names cs

/-- The names that lead to a path without detours. -/
def place (path : String) : List (List Char) :=
  namesOf (Path.normalForm path.toList)

/-- A place that is a directory whatever the entries are: the directory itself, those above it and
the root. -/
def isFixed (names : List (List Char)) : Bool :=
  names.all (· = Path.up) || names = [root]

def at? (d : Directory) (names : List (List Char)) : Option Content :=
  if isFixed names then some .directory
  else
    match d.find? fun entry => entry.1 = names with
    | some (_, content) => some content
    | none => if d.any fun entry => names.isPrefixOf entry.1 then some .directory else none

def above (names : List (List Char)) : List (List Char) :=
  if names = [root] then names
  else if names.all (· = Path.up) then names ++ [Path.up]
  else names.dropLast

/-- The most octets that a name can have. -/
def nameLimit : Nat := 255

def pathLimit : Nat := 4095

def isLongName (name : List Char) : Bool :=
  nameLimit < (String.ofList name).utf8ByteSize

/-- Follows the names of a path. Every name but the last must lead to a directory. -/
def follow (d : Directory) (here : List (List Char)) : List (List Char) → Found
  | [] =>
    match d.at? here with
    | some (.file octets) => .file octets
    | some .directory => .directory
    | none => .absent
  | name :: rest =>
    match d.at? here with
    | some .directory =>
      if isLongName name then .tooLong
      else follow d (if name = Path.up then above here else here ++ [name]) rest
    | some (.file _) => .belowFile
    | none => .absent

def find (d : Directory) (path : String) : Found :=
  if pathLimit < path.utf8ByteSize then .tooLong else d.follow [] (namesOf path.toList)

end Directory

namespace Files

def refusal (path : String) : Found → String
  | .directory => "[Errno 21] Is a directory: " ++ Text.quote path
  | .belowFile => "[Errno 20] Not a directory: " ++ Text.quote path
  | .tooLong => "[Errno 36] File name too long: " ++ Text.quote path
  | _ => "[Errno 2] No such file or directory: " ++ Text.quote path

/-- The text of octets, its lines ended by line feeds. -/
def sourceText (octets : List Nat) : Except String String :=
  match Text.Utf8.decode? octets with
  | .ok s => .ok (Text.withLineFeeds s)
  | .error e => .error e.message

def readSource (files : Files) (path : String) : Except Failure String :=
  if path.toList.contains '\x00' then .error .unusablePath
  else
    match files.working.find path with
    | .file octets =>
      match sourceText octets with
      | .ok s => .ok s
      | .error reason => .error (.fileAccess path reason)
    | found => .error (.fileAccess path (refusal path found))

end Files

end ComplexityMeter
