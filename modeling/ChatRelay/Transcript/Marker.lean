import ChatRelay.Message
import ChatRelay.Text.Search

/-!
# Markers

Reasoning and tool calls are marked inside a model's text by a pair of markers each. This module
finds the first opening marker of a text (`findOpening?`), says which end of a text may still become
one (`partialOpening`), and takes the markers off a block (`Marker.strip`).
-/

namespace ChatRelay

/-- The kinds of marked blocks. -/
inductive Marker where
  | think
  | tool
deriving DecidableEq

namespace Marker

/-- Every kind of block. -/
def all : List Marker := [think, tool]

/-- The type of a block's content. -/
def kind : Marker → ContentType
  | think => .think
  | tool => .tool

/-- The kind of block whose content has a type. -/
def ofKind? (kind : ContentType) : Option Marker :=
  all.find? fun m => m.kind = kind

/-- The marker that opens a block. -/
def opening : Marker → List Char
  | think => "<think>".toList
  | tool => "<tool>".toList

/-- The marker that closes a block. -/
def closing : Marker → List Char
  | think => "</think>".toList
  | tool => "</tool>".toList

/-- The text without a closing marker at its end. -/
def withoutClosing (m : Marker) (s : List Char) : List Char :=
  ((Text.after? m.closing.reverse s.reverse).map List.reverse).getD s

/-- The content of a block without its markers and without blanks around it. -/
def strip (m : Marker) (s : List Char) : List Char :=
  let inner := Text.trim s
  Text.trim (m.withoutClosing ((Text.after? m.opening inner).getD inner))

/-- The marker whose opening begins the text, and the text after it. -/
def openingAt? (s : List Char) : Option (Marker × List Char) :=
  all.findSome? fun m => (Text.after? m.opening s).map (m, ·)

/-- The text before the first opening marker, the marker, and the text after it. -/
def findOpening? : List Char → Option (List Char × Marker × List Char)
  | [] => none
  | c :: cs =>
    match openingAt? (c :: cs) with
    | some (m, rest) => some ([], m, rest)
    | none => (findOpening? cs).map fun (before, m, rest) => (c :: before, m, rest)

/-- Whether the text is a beginning of an opening marker, but neither empty nor the whole of it. -/
def beginsOpening (s : List Char) : Bool :=
  !s.isEmpty && all.any fun m => s.isPrefixOf m.opening && s.length < m.opening.length

/-- The longest end of the text that may still become an opening marker. -/
def partialOpening : List Char → List Char
  | [] => []
  | c :: cs => if beginsOpening (c :: cs) then c :: cs else partialOpening cs

/-- Where an opening marker is found the text begins with it. -/
theorem openingAt?_eq_some {s : List Char} {m : Marker} {rest : List Char}
    (h : openingAt? s = some (m, rest)) : s = m.opening ++ rest := by
  obtain ⟨n, -, hn⟩ := List.exists_of_findSome?_eq_some h
  obtain ⟨r, hr, he⟩ := Option.map_eq_some_iff.1 hn
  cases he
  exact Text.after?_eq_some_iff.1 hr

/-- An opening marker that is found stands between what is before and what is after it. -/
theorem findOpening?_eq_some {s before : List Char} {m : Marker} {rest : List Char}
    (h : findOpening? s = some (before, m, rest)) : s = before ++ m.opening ++ rest := by
  fun_induction findOpening? s generalizing before with
  | case1 => cases h
  | case2 c cs n r hr =>
    cases h
    simpa using openingAt?_eq_some hr
  | case3 c cs hr ih =>
    obtain ⟨⟨b, n, r⟩, hb, he⟩ := Option.map_eq_some_iff.1 h
    cases he
    simp [ih hb]

/-- No opening marker is empty. -/
theorem opening_length_pos (m : Marker) : 0 < m.opening.length := by
  cases m <;> decide

/-- No closing marker is empty. -/
theorem closing_length_pos (m : Marker) : 0 < m.closing.length := by
  cases m <;> decide

/-- A marker has six characters or more. -/
theorem six_le_length (m : Marker) : 6 ≤ m.opening.length ∧ 6 ≤ m.closing.length := by
  cases m <;> decide

end Marker

/-- Content of a type without its markers; content of a type without markers is kept as it is. -/
def stripMarkers (kind : ContentType) (s : List Char) : List Char :=
  match Marker.ofKind? kind with
  | some m => m.strip s
  | none => s

end ChatRelay
