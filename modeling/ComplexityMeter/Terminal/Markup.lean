import ComplexityMeter.Command.Console
import ComplexityMeter.Terminal.Emoji

/-!
# Marked-up text

A tag in brackets sets or ends the style that it names. What is shown is the text without its tags
and with emoji for their codes. A backslash before a tag takes its meaning away. A text is refused
when a tag ends a style that is not set. Styles are told apart by their names alone.
-/

namespace ComplexityMeter.Terminal

open Command (Refusal)

/-- A piece of marked-up text. -/
inductive Piece where
  | text (shown : List Char)
  | tag (body : List Char)
  deriving DecidableEq, Repr

def startsTag (c : Char) : Bool :=
  c.isLower || c = '#' || c = '/' || c = '@'

/-- What stands up to the first closing bracket, and what follows it; an opening bracket in between
makes it no tag. -/
def untilBracket : List Char → Option (List Char × List Char)
  | [] => none
  | c :: rest =>
    if c = ']' then some ([], rest)
    else if c = '[' then none
    else (untilBracket rest).map fun (body, after) => (c :: body, after)

def tagAt? : List Char → Option (List Char × List Char)
  | '[' :: c :: rest =>
    if startsTag c then (untilBracket rest).map fun (body, after) => (c :: body, after) else none
  | _ => none

/-- Drops the backslash before a bracket that begins no tag. -/
def unescape : List Char → List Char
  | '\\' :: '[' :: rest => '[' :: unescape rest
  | [] => []
  | c :: rest => c :: unescape rest

theorem length_lt_of_untilBracket {cs body after : List Char}
    (h : untilBracket cs = some (body, after)) : after.length < cs.length := by
  induction cs generalizing body with
  | nil => cases h
  | cons c rest ih =>
    rw [untilBracket] at h
    split at h
    · obtain ⟨-, rfl⟩ := Prod.mk.inj (Option.some.inj h)
      exact Nat.lt_succ_self _
    · split at h
      · cases h
      · obtain ⟨⟨_, _⟩, inner, same⟩ := Option.map_eq_some_iff.1 h
        obtain ⟨-, rfl⟩ := Prod.mk.inj same
        exact Nat.lt_succ_of_lt (ih inner)

theorem length_lt_of_tagAt? {cs body after : List Char} (h : tagAt? cs = some (body, after)) :
    after.length < cs.length := by
  unfold tagAt? at h
  split at h
  · split at h
    · obtain ⟨⟨_, _⟩, inner, same⟩ := Option.map_eq_some_iff.1 h
      obtain ⟨-, rfl⟩ := Prod.mk.inj same
      exact Nat.lt_succ_of_lt (Nat.lt_succ_of_lt (length_lt_of_untilBracket inner))
    · cases h
  · cases h

/-- The pieces of a text; `run` holds the plain characters before it, the last one first. -/
def piecesAfter (run : List Char) (cs : List Char) : List Piece :=
  match h : tagAt? cs with
  | some (body, after) =>
    have := length_lt_of_tagAt? h
    let slashes := (run.takeWhile (· = '\\')).length
    let before := Piece.text (unescape (run.drop slashes).reverse)
    let kept := Piece.text (List.replicate (slashes / 2) '\\')
    let piece := if slashes % 2 = 1 then Piece.text ('[' :: body ++ [']']) else .tag body
    before :: kept :: piece :: piecesAfter [] after
  | none =>
    match cs with
    | [] => [.text (unescape run.reverse)]
    | c :: rest => piecesAfter (c :: run) rest
termination_by cs.length

def pieces (s : String) : List Piece :=
  piecesAfter [] s.toList

def trimmed (cs : List Char) : List Char :=
  ((cs.dropWhile Text.isSpace).reverse.dropWhile Text.isSpace).reverse

/-- The name of a style, in lower case and without white space around it. -/
def styleName (cs : List Char) : List Char :=
  (trimmed cs).map Char.toLower

/-- The styles that are set after a tag, the last one first. A tag may have parameters behind an
equals sign. -/
def afterTag? (styles : List (List Char)) (body : List Char) : Option (List (List Char)) :=
  match body.takeWhile (· ≠ '=') with
  | '/' :: name =>
    match styles with
    | [] => none
    | last :: before =>
      if styleName name = [] then some before
      else if styleName name ∈ last :: before then some ((last :: before).erase (styleName name))
      else none
  | name => some (styleName name :: styles)

def show? (styles : List (List Char)) : List Piece → Option (List Char)
  | [] => some []
  | .text shown :: rest => (show? styles rest).map (Emoji.replaceCodes shown ++ ·)
  | .tag body :: rest => (afterTag? styles body).bind fun styles => show? styles rest

/-- What is shown of a marked-up text. -/
def shown (s : String) : Except Refusal (List Char) :=
  match show? [] (pieces s) with
  | some cs => .ok cs
  | none => .error ⟨"MarkupError"⟩

end ComplexityMeter.Terminal
