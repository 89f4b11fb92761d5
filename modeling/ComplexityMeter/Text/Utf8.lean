/-!
# UTF-8

Decoding of octet sequences. An invalid sequence is cut at its maximal part: the lead octet and
the continuation octets that could still belong to a character. Strict decoding stops at the
first such part and says what is wrong with it; lenient decoding puts one replacement character
in its place.
-/

namespace ComplexityMeter.Text.Utf8

/-- What is wrong with an invalid part. -/
inductive Fault where
  /-- No character starts with this octet. -/
  | start
  /-- The character is not continued. -/
  | continuation
  /-- The text ends inside a character. -/
  | truncated
  deriving DecidableEq, Repr

/-- The first part of a sequence, with the number of octets it takes. -/
inductive Part where
  | char (c : Char) (size : Nat)
  | invalid (fault : Fault) (size : Nat)

/-- What a lead octet says: the bits it contributes, how many octets continue it, and the range of
the first of them. -/
structure Lead where
  bits : Nat
  more : Nat
  low : Nat
  high : Nat

def Lead.ofOctet? (b : Nat) : Option Lead :=
  if b < 0x80 then some ⟨b, 0, 0x80, 0xBF⟩
  else if b < 0xC2 then none
  else if b < 0xE0 then some ⟨b - 0xC0, 1, 0x80, 0xBF⟩
  else if b = 0xE0 then some ⟨0, 2, 0xA0, 0xBF⟩
  else if b = 0xED then some ⟨0xD, 2, 0x80, 0x9F⟩
  else if b < 0xF0 then some ⟨b - 0xE0, 2, 0x80, 0xBF⟩
  else if b = 0xF0 then some ⟨0, 3, 0x90, 0xBF⟩
  else if b < 0xF4 then some ⟨b - 0xF0, 3, 0x80, 0xBF⟩
  else if b = 0xF4 then some ⟨4, 3, 0x80, 0x8F⟩
  else none

/-- Reads the octets that continue a character; `taken` octets have been read before. -/
def continuation (bits taken low high : Nat) : (more : Nat) → List Nat → Part
  | 0, _ => .char (Char.ofNat bits) taken
  | _ + 1, [] => .invalid .truncated taken
  | more + 1, b :: rest =>
    if low ≤ b ∧ b ≤ high then continuation (bits * 64 + b % 64) (taken + 1) 0x80 0xBF more rest
    else .invalid .continuation taken

/-- The first part of a sequence that starts with the octet `b`. -/
def firstPart (b : Nat) (rest : List Nat) : Part :=
  match Lead.ofOctet? b with
  | none => .invalid .start 1
  | some lead => continuation lead.bits 1 lead.low lead.high lead.more rest

/-- An invalid part of a text: its position, its octets and what is wrong. -/
structure Error where
  position : Nat
  octets : List Nat
  fault : Fault
  deriving DecidableEq, Repr

/-- Decodes to the end or to the first invalid part. The parts have at least one octet, so each
step drops one and the others that the part takes. -/
def decodeFrom (position : Nat) : List Nat → Except Error (List Char)
  | [] => .ok []
  | b :: rest =>
    match firstPart b rest with
    | .char c size => (decodeFrom (position + size) (rest.drop (size - 1))).map (c :: ·)
    | .invalid fault size => .error ⟨position, (b :: rest).take size, fault⟩
termination_by octets => octets.length

def decode? (octets : List Nat) : Except Error String :=
  (decodeFrom 0 octets).map String.ofList

/-- Decodes with a replacement character for every invalid part. -/
def decodeLenient : List Nat → List Char
  | [] => []
  | b :: rest =>
    match firstPart b rest with
    | .char c size => c :: decodeLenient (rest.drop (size - 1))
    | .invalid _ size => '\uFFFD' :: decodeLenient (rest.drop (size - 1))
termination_by octets => octets.length

def octets (bytes : ByteArray) : List Nat :=
  bytes.toList.map UInt8.toNat

def Fault.message : Fault → String
  | .start => "invalid start byte"
  | .continuation => "invalid continuation byte"
  | .truncated => "unexpected end of data"

/-- Says where decoding failed: one octet by its value, several by their positions. -/
def Error.message (e : Error) : String :=
  let place :=
    match e.octets with
    | [b] =>
      let digits := Nat.toDigits 16 b
      "byte 0x" ++ String.ofList (List.replicate (2 - digits.length) '0' ++ digits)
        ++ " in position " ++ toString e.position
    | several =>
      "bytes in position " ++ toString e.position ++ "-"
        ++ toString (e.position + several.length - 1)
  "'utf-8' codec can't decode " ++ place ++ ": " ++ e.fault.message

end ComplexityMeter.Text.Utf8
