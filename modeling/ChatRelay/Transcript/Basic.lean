import ChatRelay.Json.Writer
import ChatRelay.Transcript.Marker

/-!
# Transcripts

The transcript of a reply is a list of typed segments. New text goes to the current segment, and is
also remembered in a buffer, in which markers are looked for (`ChatRelay.Transcript.Scan`). The
buffer is always an end of the current segment's text; changing the current segment empties it.
Segments are told apart by numbers that only grow.
-/

namespace ChatRelay

open Json (Value Object Decoder Shape)

/-- The number that tells a segment from all others of its transcript. -/
structure SegmentId where
  number : UInt64
deriving DecidableEq

/-- The name of a segment. -/
def SegmentId.name (id : SegmentId) : String :=
  "seg-" ++ toString id.number.toNat

/-- A contiguous part of a transcript, of one type. -/
structure Segment where
  id : SegmentId
  kind : ContentType
  text : List Char
  props : Object
  /-- How many segments there were when this one was made. -/
  order : Nat

namespace Segment

/-- A segment in JSON. -/
def toJson (s : Segment) : Value :=
  Json.objectOf [
    ("id", some (.ofNat s.id.number.toNat)),
    ("type", some s.kind.toJson),
    ("text", some (.ofText s.text)),
    ("props", if s.props.isEmpty then none else some (.object s.props))]

/-- The JSON text of a segment, with its fields in their declared order. -/
def render (s : Segment) : List Char :=
  let field (name : String) (v : Value) : List Char × List Char := (name.toList, v.render)
  Json.renderMembers <|
    [field "id" (.ofNat s.id.number.toNat), field "type" s.kind.toJson,
      field "text" (.ofText s.text)] ++
      if s.props.isEmpty then [] else [field "props" (.object s.props)]

/-- The fields of a segment. -/
def shape : Shape := ⟨"Segment", ["id", "type", "text", "props"]⟩

/-- A segment out of JSON. -/
def decode : Decoder Segment := fun v => do
  let r ← shape.record v
  let id ← shape.required r "id" (.natural "u64")
  let kind ← shape.required r "type" ContentType.decode
  let text ← shape.required r "text" .string
  let props ← shape.defaulted r "props" [] .object
  shape.done r
  return { id := ⟨UInt64.ofNat id⟩, kind, text := text.toList, props, order := 0 }

end Segment

/-- The transcript of one reply. -/
structure Transcript where
  segments : List Segment
  /-- The place of the segment to which new text goes. -/
  current : Option Nat
  /-- The greatest number that any segment has had. -/
  lastId : UInt64
  /-- The end of the current segment's text in which markers are still looked for. -/
  buffer : List Char
  /-- The block that has been opened and not closed. -/
  opened : Option Marker

namespace Transcript

/-- Nothing has been said. -/
def empty : Transcript where
  segments := []
  current := none
  lastId := 0
  buffer := []
  opened := none

/-- Whether there is no segment. -/
def isEmpty (t : Transcript) : Bool :=
  t.segments.isEmpty

/-- The segment with an id. -/
def find? (t : Transcript) (id : SegmentId) : Option Segment :=
  t.segments.find? fun s => s.id = id

/-- The place of the segment with an id. -/
def indexOf? (t : Transcript) (id : SegmentId) : Option Nat :=
  t.segments.findIdx? fun s => s.id = id

/-- The current segment. -/
def currentSegment? (t : Transcript) : Option Segment :=
  t.current.bind fun i => t.segments[i]?

/-- The id of the current segment. -/
def currentId? (t : Transcript) : Option SegmentId :=
  t.currentSegment?.map Segment.id

/-- The type of the block that has been opened and not closed. -/
def openedKind? (t : Transcript) : Option ContentType :=
  t.opened.map Marker.kind

/-- The whole text, segment after segment. -/
def text (t : Transcript) : List Char :=
  t.segments.flatMap Segment.text

/-- The segments as a JSON text. -/
def json (t : Transcript) : String :=
  String.ofList (Json.renderItems (t.segments.map Segment.render))

/-- Forgets what was remembered for finding markers. -/
def resetScan (t : Transcript) : Transcript :=
  { t with buffer := [], opened := none }

/-- A new empty segment with an id, at the end. -/
def push (t : Transcript) (id : SegmentId) (kind : ContentType) : Transcript :=
  { t with
    segments := t.segments ++ [⟨id, kind, [], [], t.segments.length⟩]
    lastId := max t.lastId id.number }

/-- A new empty segment at the end, with the number after the greatest one. -/
def pushNew (t : Transcript) (kind : ContentType) : Transcript :=
  { t with lastId := t.lastId + 1 }.push ⟨t.lastId + 1⟩ kind

/-- A change of the segment at a place. -/
def modify (t : Transcript) (i : Nat) (f : Segment → Segment) : Transcript :=
  { t with segments := t.segments.modify i f }

/-- Makes the segment at a place the current one; what was remembered of another is forgotten. -/
def select (t : Transcript) (i : Nat) : Transcript :=
  if t.current = some i then t else { t with current := some i }.resetScan

/-- Text after the text of the segment at a place, which becomes the current one. -/
def appendAt (t : Transcript) (i : Nat) (s : List Char) : Transcript :=
  let t := (t.select i).modify i fun g => { g with text := g.text ++ s }
  { t with buffer := t.buffer ++ s }

/-- Text after the text of the current segment, or in a first text segment. Empty text changes
nothing. -/
def append (t : Transcript) (s : List Char) : Transcript :=
  if s.isEmpty then t
  else
    match t.current with
    | some i => t.appendAt i s
    | none => (t.pushNew .text).appendAt t.segments.length s

/-- Text after the text of the segment with an id, which is made if there is none. Empty text
changes nothing. -/
def appendTo (t : Transcript) (id : SegmentId) (s : List Char) : Transcript :=
  if s.isEmpty then t
  else
    match t.indexOf? id with
    | some i => t.appendAt i s
    | none => (t.push id .text).appendAt t.segments.length s

/-- A new text segment, which becomes the current one. -/
def beginText (t : Transcript) (s : List Char) : Transcript :=
  let i := t.segments.length
  let t := { t.pushNew .text with current := some i }.resetScan
  { t.modify i fun g => { g with text := s } with buffer := s }

/-- Gives the segment with an id another type and more properties. `none` when there is no such
segment. -/
def retype? (t : Transcript) (kind : ContentType) (props : Object) (id : SegmentId) :
    Option Transcript :=
  (t.indexOf? id).map fun i =>
    t.modify i fun g => { g with kind, props := Table.setAll g.props props }

/-- Drops the last segment if it is empty. If it was the current one, the one before it becomes
current. -/
def dropEmptyLast (t : Transcript) : Transcript :=
  match t.segments.getLast? with
  | some g =>
    if g.text.isEmpty then
      let rest := t.segments.dropLast
      if t.current.any (rest.length ≤ ·) then
        { t with
          segments := rest
          current := if rest.isEmpty then none else some (rest.length - 1) }.resetScan
      else { t with segments := rest }
    else t
  | none => t

end Transcript

end ChatRelay
