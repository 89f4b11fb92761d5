import ComplexityMeter.Syntax.Node
import ComplexityMeter.Syntax.Language
import ComplexityMeter.Text.Utf8
import ComplexityMeter.Value

/-!
# Recorded trees

A concrete tree can be recorded as nested lists beside its source: kind, flags, field, first and
last octet, first and last row, the nodes below, and an identity if the node has a given one. All
other nodes get identities that occur nowhere else.
-/

namespace ComplexityMeter.Syntax

/-- Even numbers stand for given identities and odd ones for those that are handed out. -/
def givenIdentity (n : Int) : Nat :=
  if n < 0 then 4 * n.natAbs + 2 else 4 * n.natAbs

def freshIdentity (count : Nat) : Nat :=
  2 * count + 1

/-- The text between two octets of a source; a position before the source means no text. -/
def sliceText (source : ByteArray) (start stop : Int) : String :=
  if start < 0 then ""
  else
    let slice := source.extract start.toNat stop.toNat
    (String.fromUTF8? slice).getD
      (String.ofList (Text.Utf8.decodeLenient (Text.Utf8.octets slice)))

def hasFlag (flags : Int) (bit : Nat) : Bool :=
  flags.toNat.testBit bit

/-- The parts of a recorded node besides the nodes below it. -/
structure RecordHead where
  kind : String
  flags : Int
  field : String
  start : Int
  stop : Int
  startRow : Int
  endRow : Int

def recordHead? : List Datum → Option RecordHead
  | [.text kind, .number (.int flags), .text field, .number (.int start), .number (.int stop),
      .number (.int startRow), .number (.int endRow)] =>
    some ⟨kind, flags, field, start, stop, startRow, endRow⟩
  | _ => none

/-- The identity of a recorded node, from what follows the nodes below it. -/
def recordIdentity (count : Nat) : List Datum → Nat
  | .number (.int n) :: _ => givenIdentity n
  | _ => freshIdentity count

def RecordHead.node (source : ByteArray) (head : RecordHead) (branches : List Node)
    (identity : Nat) : Node :=
  { kind := head.kind
    isNamed := hasFlag head.flags 0
    isMissing := hasFlag head.flags 1
    hasError := hasFlag head.flags 2
    field := if head.field = "" then none else some head.field
    text := sliceText source head.start head.stop
    startRow := head.startRow.toNat
    endRow := head.endRow.toNat
    identity
    branches }

mutual

/-- Reads a recorded node; `count` nodes have been read before. The new count is given back. -/
def readRecord (source : ByteArray) (count : Nat) : Datum → Option (Node × Nat)
  | .list [kind, flags, field, start, stop, startRow, endRow, .list branches] =>
    readParts source count [kind, flags, field, start, stop, startRow, endRow] branches []
  | .list [kind, flags, field, start, stop, startRow, endRow, .list branches, identity] =>
    readParts source count [kind, flags, field, start, stop, startRow, endRow] branches [identity]
  | _ => none

def readParts (source : ByteArray) (count : Nat) (head : List Datum) (branches : List Datum)
    (identity : List Datum) : Option (Node × Nat) :=
  match recordHead? head, readRecords source (count + 1) branches with
  | some head, some (nodes, next) =>
    some (head.node source nodes (recordIdentity count identity), next)
  | _, _ => none

def readRecords (source : ByteArray) (count : Nat) : List Datum → Option (List Node × Nat)
  | [] => some ([], count)
  | item :: rest =>
    match readRecord source count item with
    | none => none
    | some (node, next) =>
      match readRecords source next rest with
      | none => none
      | some (nodes, last) => some (node :: nodes, last)

end

def Node.ofRecord? (code : String) (record : Datum) : Option Node :=
  (readRecord code.toUTF8 0 record).map Prod.fst

/-- A tree for sources that no tree is recorded for: a text that fits nowhere. -/
def Node.unreadable : Node :=
  { kind := "ERROR"
    isNamed := true
    isMissing := false
    hasError := true
    field := none
    text := ""
    startRow := 0
    endRow := 0
    identity := 0
    branches := [] }

/-- A source with its recorded tree. -/
structure RecordedSource where
  language : Language
  code : String
  root : Node

/-- The parser that looks trees up among recorded ones. -/
def recordedParser (sources : List RecordedSource) (language : Language) (code : String) : Node :=
  match sources.find? fun s => s.language = language && s.code = code with
  | some s => s.root
  | none => Node.unreadable

end ComplexityMeter.Syntax
