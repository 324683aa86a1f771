import ChatRelay.Failure
import ChatRelay.Text.Blank
import ChatRelay.Text.Utf8

/-!
# Lines of a body

A body arrives in chunks of bytes. It is cut into lines at the newlines, and only a whole line is
decoded, so that a character may be divided between two chunks. Lines are trimmed and blank ones are
dropped. What is left after the last newline is a line too when the body ends well; a body that
breaks off gives a failure in its place.
-/

namespace ChatRelay.Http

/-- The newline. -/
def newline : UInt8 := 10

/-- The lines that are complete, and the bytes after the last newline. -/
def cutLines (bytes : List UInt8) : List (List UInt8) × List UInt8 :=
  match bytes with
  | [] => ([], [])
  | b :: rest =>
    let (lines, last) := cutLines rest
    if b = newline then ([] :: lines, last)
    else
      match lines with
      | [] => ([], b :: last)
      | line :: more => ((b :: line) :: more, last)

/-- The text of a line, unless it is blank. -/
def lineText? (line : List UInt8) : Option String :=
  let text := Text.trim (Text.decode line)
  if text.isEmpty then none else some (String.ofList text)

/-- The failure of a connection that broke off. -/
def brokenOff : Failure := .network "error decoding response body"

/-- A body as it arrives. -/
structure Body where
  chunks : List (List UInt8)
  /-- The connection breaks off after the last chunk. -/
  broken : Bool

namespace Body

/-- The bytes of a body. -/
def bytes (b : Body) : List UInt8 := b.chunks.flatten

/-- The lines of the chunks that are still to come, after the bytes of a line that has begun. -/
def linesAfter (broken : Bool) (begun : List UInt8) : List (List UInt8) → List (Result String)
  | [] => if broken then [.error brokenOff] else (lineText? begun).toList.map .ok
  | chunk :: rest =>
    let (lines, begun) := cutLines (begun ++ chunk)
    (lines.filterMap lineText?).map .ok ++ linesAfter broken begun rest

/-- The lines of a body; a failure can only be the last of them. -/
def lines (b : Body) : List (Result String) :=
  linesAfter b.broken [] b.chunks

end Body

/-! ### Cutting -/

/-- Bytes without a newline belong to the first of the lines that follow. -/
theorem cutLines_append_of_no_newline {begun : List UInt8} (h : newline ∉ begun)
    (bytes : List UInt8) :
    cutLines (begun ++ bytes) =
      match cutLines bytes with
      | ([], last) => ([], begun ++ last)
      | (line :: more, last) => ((begun ++ line) :: more, last) := by
  induction begun with
  | nil =>
    rw [List.nil_append]
    rcases cutLines bytes with ⟨_ | ⟨_, _⟩, _⟩ <;> rfl
  | cons b begun ih =>
    obtain ⟨hb, h⟩ := not_or.mp (mt List.mem_cons.mpr h)
    simp only [List.cons_append, cutLines, ih h, if_neg (Ne.symm hb)]
    rcases cutLines bytes with ⟨_ | ⟨_, _⟩, _⟩ <;> rfl

end ChatRelay.Http
