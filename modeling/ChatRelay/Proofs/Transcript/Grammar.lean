import ChatRelay.Proofs.Transcript.Parts
import Mathlib.Data.List.Induction

/-!
# The grammar of marked text

A text is plain text and marked blocks in turn. A block begins with the first opening marker after
the block before it, and ends with the first closing marker of its own kind; until then any other
marker is part of its content. `MarkedText.Describes` is this grammar, and every text has exactly
one description (`describes_iff`). A scan of the text finds it: the segments of the transcript are
the blocks and the plain text between them, and the boundaries are the two ends of each block
(`scan_append_empty`).
-/

namespace ChatRelay

open Json (Value Object)

/-! ### Descriptions of a text -/

/-- A marked block of a text. The last block may lack its closing marker. -/
structure MarkedBlock where
  marker : Marker
  /-- What stands between the markers. -/
  inner : List Char
  closed : Bool

namespace MarkedBlock

/-- The text of a block with its markers. -/
def text (b : MarkedBlock) : List Char :=
  b.marker.opening ++ (b.inner ++ if b.closed then b.marker.closing else [])

/-- What a segment that holds the block is made of. The content of a block that is closed is kept as
a property. -/
def part (b : MarkedBlock) : Part where
  kind := b.marker.kind
  text := b.text
  props := if b.closed then [("text", .ofText (Text.trim b.inner))] else []

/-- The boundaries of a block that stands in a segment. -/
def crossings (b : MarkedBlock) (id : SegmentId) : List Crossing :=
  ⟨b.marker.kind, id, true, none⟩ ::
    if b.closed then [⟨b.marker.kind, id, false, some b.inner⟩] else []

end MarkedBlock

/-- A marked block and the plain text before it. -/
structure Stanza where
  lead : List Char
  block : MarkedBlock

/-- A text by its marked blocks. -/
structure MarkedText where
  stanzas : List Stanza
  /-- The plain text after the last block. -/
  rest : List Char

namespace MarkedText

/-- The grammar of marked text. -/
inductive Describes : MarkedText → List Char → Prop
  /-- Text in which no block begins. -/
  | plain {s : List Char} (h : Marker.Unopened s) : Describes ⟨[], s⟩ s
  /-- A last block, which lacks its closing marker and goes on to the end. -/
  | unclosed {lead inner : List Char} {m : Marker} (hlead : m.First lead inner)
      (hinner : ¬m.closing <:+: inner) :
      Describes ⟨[⟨lead, ⟨m, inner, false⟩⟩], []⟩ (lead ++ (m.opening ++ inner))
  /-- A block up to its closing marker, and then more marked text. -/
  | closed {lead inner s : List Char} {m : Marker} {x : MarkedText}
      (hlead : m.First lead (inner ++ (m.closing ++ s))) (hinner : ¬m.closing <:+: inner)
      (hrest : Describes x s) :
      Describes ⟨⟨lead, ⟨m, inner, true⟩⟩ :: x.stanzas, x.rest⟩
        (lead ++ (m.opening ++ (inner ++ (m.closing ++ s))))

/-- What follows a block is shorter than the text from the plain text before the block on. -/
theorem length_lt_of_cutAt? {s lead tails inner after : List Char} {m : Marker}
    (h : Marker.findOpening? s = some (lead, m, tails))
    (hcut : Text.cutAt? m.closing tails = some (inner, after)) : after.length < s.length := by
  have := m.opening_length_pos
  rw [Marker.findOpening?_eq_some h, Text.cutAt?_eq_some hcut]
  simp only [List.length_append]
  omega

/-- The description of a text. -/
def ofText (s : List Char) : MarkedText :=
  match h : Marker.findOpening? s with
  | none => ⟨[], s⟩
  | some (lead, m, tails) =>
    match hcut : Text.cutAt? m.closing tails with
    | none => ⟨[⟨lead, ⟨m, tails, false⟩⟩], []⟩
    | some (inner, after) =>
      have : after.length < s.length := length_lt_of_cutAt? h hcut
      let x := ofText after
      ⟨⟨lead, ⟨m, inner, true⟩⟩ :: x.stanzas, x.rest⟩
termination_by s.length

/-- A text is described by its description and by no other. -/
theorem describes_iff {x : MarkedText} {s : List Char} : x.Describes s ↔ x = ofText s := by
  constructor
  · intro h
    induction h with
    | plain h =>
      rw [ofText]
      split
      · rfl
      · next hfind => rw [h.findOpening?] at hfind; cases hfind
    | unclosed hlead hinner =>
      -- No marker begins before that of the block, so that it is the first one found.
      have hfirst := Marker.findOpening?_eq_some_iff.2 ⟨rfl, hlead⟩
      rw [ofText]
      split
      · next hfind => rw [hfirst] at hfind; cases hfind
      · next hfind =>
        rw [hfirst] at hfind
        cases hfind
        split
        · rfl
        · next hcut => rw [Text.cutAt?_eq_none_iff.2 hinner] at hcut; cases hcut
    | closed hlead hinner hrest ih =>
      have hfirst := Marker.findOpening?_eq_some_iff.2 ⟨rfl, hlead⟩
      rw [ofText]
      split
      · next hfind => rw [hfirst] at hfind; cases hfind
      · next hfind =>
        rw [hfirst] at hfind
        cases hfind
        split
        · next hcut => rw [Marker.cutAt?_append_closing hinner] at hcut; cases hcut
        · next hcut =>
          rw [Marker.cutAt?_append_closing hinner] at hcut
          cases hcut
          rw [← ih]
  · rintro rfl
    -- The other way, the description is followed as it is computed.
    fun_induction ofText s with
    | case1 s h => exact .plain (Marker.findOpening?_eq_none_iff.1 h)
    | case2 s lead m tails h hcut =>
      obtain ⟨rfl, hlead⟩ := Marker.findOpening?_eq_some_iff.1 h
      exact .unclosed hlead (Text.cutAt?_eq_none_iff.1 hcut)
    | case3 s lead m tails h inner after hcut hlt x ih =>
      obtain ⟨rfl, hlead⟩ := Marker.findOpening?_eq_some_iff.1 h
      have hclosing : m.closing ≠ [] := List.length_pos_iff.1 m.closing_length_pos
      have hinner := Text.not_isInfix_of_cutAt? hclosing hcut
      have htails := Text.cutAt?_eq_some hcut
      rw [List.append_assoc] at htails
      subst htails
      exact .closed hlead hinner ih

end MarkedText

/-! ### Segments of a text -/

/-- What stands in one segment: plain text or a marked block. -/
inductive Fragment where
  | plain (s : List Char)
  | block (b : MarkedBlock)

namespace Fragment

/-- What a segment that holds the fragment is made of. -/
def part : Fragment → Part
  | plain s => ⟨.text, s, []⟩
  | block b => b.part

/-- The boundaries of a fragment that stands in a segment. -/
def crossings : Fragment → SegmentId → List Crossing
  | plain _, _ => []
  | block b, id => b.crossings id

/-- Plain text that takes a segment only if there is any. -/
def plainIfAny (s : List Char) : List Fragment :=
  if s = [] then [] else [plain s]

/-- Plain text makes one part, if it is not empty. -/
@[simp] theorem map_part_plainIfAny (s : List Char) :
    (plainIfAny s).map part = Part.plain s := by
  unfold plainIfAny Part.plain
  split <;> rfl

/-- The boundaries of fragments that stand in segments of their own, from a place on. -/
def crossingsFrom : Nat → List Fragment → List Crossing
  | _, [] => []
  | i, f :: fs => f.crossings ⟨.ofNat (i + 1)⟩ ++ crossingsFrom (i + 1) fs

/-- Fragments in a row are crossed one after another, with their places counted on. -/
theorem crossingsFrom_append (i : Nat) (fs gs : List Fragment) :
    crossingsFrom i (fs ++ gs) = crossingsFrom i fs ++ crossingsFrom (i + fs.length) gs := by
  induction fs generalizing i with
  | nil => rfl
  | cons f fs ih =>
    rw [List.cons_append, crossingsFrom, ih, crossingsFrom, List.append_assoc, List.length_cons,
      Nat.add_right_comm, Nat.add_assoc]

/-- In plain text no marker is crossed. -/
theorem crossingsFrom_plainIfAny (i : Nat) (s : List Char) :
    crossingsFrom i (plainIfAny s) = [] := by
  unfold plainIfAny
  split <;> rfl

/-- Each boundary names the segment in which its fragment stands. -/
theorem flatMap_crossings_numbered (fs : List Fragment) :
    ((numbered (fs.map part)).zip fs).flatMap (fun (g, f) => f.crossings g.id) =
      crossingsFrom 0 fs := by
  induction fs using List.reverseRecOn with
  | nil => rfl
  | append_singleton fs f ih =>
    rw [List.map_append, List.map_singleton, numbered_concat, List.zip_append (by simp),
      List.flatMap_append, ih, crossingsFrom_append]
    simp [crossingsFrom, Part.segment]

end Fragment

namespace Stanza

/-- The fragments of a block and the plain text before it. -/
def fragments (x : Stanza) : List Fragment :=
  Fragment.plainIfAny x.lead ++ [.block x.block]

/-- A stanza is made of the text before its block and of the block. -/
theorem map_part_fragments (x : Stanza) :
    x.fragments.map Fragment.part = Part.plain x.lead ++ [x.block.part] := by
  rw [fragments, List.map_append, Fragment.map_part_plainIfAny]
  rfl

/-- The boundaries of a block name the segment after that of the plain text before it. -/
theorem crossingsFrom_fragments (i : Nat) (x : Stanza) :
    Fragment.crossingsFrom i x.fragments =
      x.block.crossings ⟨.ofNat (i + (Part.plain x.lead).length + 1)⟩ := by
  rw [fragments, Fragment.crossingsFrom_append, Fragment.crossingsFrom_plainIfAny,
    ← Fragment.map_part_plainIfAny, List.length_map]
  exact List.append_nil _

end Stanza

namespace MarkedText

/-- The kind of the last block, if it lacks its closing marker. -/
def unclosed? (x : MarkedText) : Option Marker :=
  x.stanzas.getLast?.bind fun last => if last.block.closed then none else some last.block.marker

/-- What stands after the last block. After a block that is closed the plain text has a segment even
if there is none. -/
def ending (x : MarkedText) : List Fragment :=
  match x.stanzas.getLast? with
  | none => Fragment.plainIfAny x.rest
  | some last => if last.block.closed then [.plain x.rest] else []

/-- What the segments of a text hold: the marked blocks, and between them the plain text that there
is. -/
def fragments (x : MarkedText) : List Fragment :=
  x.stanzas.flatMap Stanza.fragments ++ x.ending

/-- What the segments of a text hold that goes on after a closed block. -/
def continued (x : MarkedText) : List Fragment :=
  if x.stanzas = [] then [.plain x.rest] else x.fragments

/-- After a closed block its text goes on. -/
theorem fragments_cons {first : Stanza} (h : first.block.closed = true) (x : MarkedText) :
    fragments ⟨first :: x.stanzas, x.rest⟩ = first.fragments ++ x.continued := by
  obtain ⟨stanzas, rest⟩ := x
  cases stanzas with
  | nil => simp [fragments, continued, ending, h]
  | cons second more => simp [fragments, continued, ending]

/-- Whether the last block is open does not depend on a closed one at the beginning. -/
theorem unclosed?_cons {first : Stanza} (h : first.block.closed = true) (x : MarkedText) :
    unclosed? ⟨first :: x.stanzas, x.rest⟩ = x.unclosed? := by
  obtain ⟨stanzas, rest⟩ := x
  cases stanzas with
  | nil => simp [unclosed?, h]
  | cons second more => simp [unclosed?]

/-- Where nothing came before, only a text of no length goes on differently. -/
theorem Describes.continued_eq {x : MarkedText} {s : List Char} (h : x.Describes s) (hs : s ≠ []) :
    x.continued = x.fragments := by
  cases h with
  | plain => simp [continued, fragments, ending, Fragment.plainIfAny, hs]
  | unclosed => rfl
  | closed => rfl

end MarkedText

namespace Transcript

open MarkedText

/-! ### Scanning a text -/

variable (ps : List Part)

/-- An opening marker is found in plain text. -/
theorem step?_ofParts_opening {s lead tails : List Char} {m : Marker}
    (h : Marker.findOpening? s = some (lead, m, tails)) :
    (ofParts ps ⟨.text, s, []⟩ s none).step? =
      some (⟨m.kind, ⟨.ofNat ((ps ++ Part.plain lead).length + 1)⟩, true, lead, tails⟩,
        ofParts (ps ++ Part.plain lead) ⟨m.kind, m.opening ++ tails, []⟩ tails (some m)) := by
  obtain ⟨rfl, -⟩ := Marker.findOpening?_eq_some_iff.1 h
  rw [← openBlock_ofParts]
  exact step?_writing_of_findOpening? h

/-- A closing marker is found in the block that it closes. -/
theorem step?_ofParts_closing {tails inner after : List Char} {m : Marker}
    (h : Text.cutAt? m.closing tails = some (inner, after)) :
    (ofParts ps ⟨m.kind, m.opening ++ tails, []⟩ tails (some m)).step? =
      some (⟨m.kind, ⟨.ofNat (ps.length + 1)⟩, false, inner, after⟩,
        ofParts (ps ++ [MarkedBlock.part ⟨m, inner, true⟩]) ⟨.text, after, []⟩ after none) := by
  have htext : m.opening ++ tails = m.opening ++ (inner ++ m.closing) ++ after := by
    rw [Text.cutAt?_eq_some h]
    simp
  have hclosed : (ofParts ps ⟨m.kind, m.opening ++ (inner ++ m.closing) ++ after, []⟩ tails
      (some m)).closeBlock m inner after = _ := closeBlock_ofParts ps inner _ after m
  rw [blank, append_ofParts, ← htext] at hclosed
  exact Option.map_eq_some_iff.2 ⟨_, h, hclosed⟩

/-- The segments of parts are those of all of them, the last one included. -/
theorem segments_ofParts (p : Part) (buffer : List Char) (opened : Option Marker) :
    (ofParts ps p buffer opened).segments = numbered (ps ++ [p]) :=
  (numbered_concat ps p).symm

/-- The scan of a text that follows other segments puts each fragment of it into a segment of its
own, in order, and finds the two ends of each block. -/
theorem scanned_ofParts {x : MarkedText} {s : List Char} (h : x.Describes s) :
    let r := (ofParts ps ⟨.text, s, []⟩ s none).scanned
    r.1 = Fragment.crossingsFrom ps.length x.continued ∧
      r.2.segments = numbered (ps ++ x.continued.map Fragment.part) ∧
      r.2.opened = x.unclosed? := by
  induction h generalizing ps with
  | @plain s h =>
    have hstep : (ofParts ps ⟨.text, s, []⟩ s none).step? = none :=
      Option.map_eq_none_iff.2 h.findOpening?
    rw [scanned_of_step?_eq_none hstep]
    exact ⟨rfl, segments_ofParts ps _ _ _, rfl⟩
  | @unclosed lead inner m hlead hinner =>
    have hfirst := step?_ofParts_opening ps (Marker.findOpening?_eq_some_iff.2 ⟨rfl, hlead⟩)
    have hstep : (ofParts (ps ++ Part.plain lead) ⟨m.kind, m.opening ++ inner, []⟩ inner
        (some m)).step? = none :=
      Option.map_eq_none_iff.2 (Text.cutAt?_eq_none_iff.2 hinner)
    have hfragments : continued ⟨[⟨lead, ⟨m, inner, false⟩⟩], []⟩ =
        Stanza.fragments ⟨lead, ⟨m, inner, false⟩⟩ := by
      simp [continued, fragments, ending]
    rw [scanned_of_step? hfirst, scanned_of_step?_eq_none hstep, hfragments]
    refine ⟨?_, ?_, rfl⟩
    · rw [Stanza.crossingsFrom_fragments, List.length_append]
      rfl
    · rw [Stanza.map_part_fragments, ← List.append_assoc]
      refine (segments_ofParts _ _ _ _).trans ?_
      simp [MarkedBlock.part, MarkedBlock.text]
  | @closed lead inner s m x hlead hinner hrest ih =>
    have hfirst := step?_ofParts_opening ps (Marker.findOpening?_eq_some_iff.2 ⟨rfl, hlead⟩)
    have hlast := step?_ofParts_closing (ps ++ Part.plain lead)
      (Marker.cutAt?_append_closing hinner s)
    -- A closed block takes two steps of the scan, which leave a transcript of the same form, with
    -- the plain text and the block among its earlier parts.
    obtain ⟨hfound, hsegments, hopened⟩ :=
      ih (ps ++ Part.plain lead ++ [MarkedBlock.part ⟨m, inner, true⟩])
    have hfragments : continued ⟨⟨lead, ⟨m, inner, true⟩⟩ :: x.stanzas, x.rest⟩ =
        Stanza.fragments ⟨lead, ⟨m, inner, true⟩⟩ ++ x.continued :=
      fragments_cons rfl x
    rw [scanned_of_step? hfirst, scanned_of_step? hlast, hfound, hfragments]
    refine ⟨?_, ?_, ?_⟩
    · have hlen : (ps ++ Part.plain lead ++ [MarkedBlock.part ⟨m, inner, true⟩]).length =
          ps.length + (Stanza.fragments ⟨lead, ⟨m, inner, true⟩⟩).length := by
        rw [← List.length_map Fragment.part, Stanza.map_part_fragments, List.append_assoc,
          List.length_append]
      rw [Fragment.crossingsFrom_append, Stanza.crossingsFrom_fragments, hlen, List.length_append]
      rfl
    · rw [List.map_append, Stanza.map_part_fragments, hsegments]
      simp only [List.append_assoc]
    · rw [hopened]
      exact (unclosed?_cons rfl x).symm

/-- A text that is all of a transcript is described in exactly one way, as plain text and marked
blocks in turn, and a scan cuts the transcript so: its segments hold the blocks, each with its
content as a property if it is closed, and the plain text between them; plain text of no length has
a segment only after a last block that is closed. The scan finds where each block begins, and where
it ends if it is closed, in the segment that holds the block; and the transcript is left in the last
block if that is not closed. -/
theorem scan_append_empty (s : List Char) :
    ∃ x : MarkedText, x.Describes s ∧ (∀ y : MarkedText, y.Describes s → y = x) ∧
      let r := (empty.append s).scan
      r.2.segments = numbered (x.fragments.map Fragment.part) ∧
        r.1.map Boundary.crossing =
          (r.2.segments.zip x.fragments).flatMap (fun (g, f) => f.crossings g.id) ∧
        r.2.opened = x.unclosed? := by
  have hx : (ofText s).Describes s := describes_iff.2 rfl
  refine ⟨ofText s, hx, fun y hy => describes_iff.1 hy, ?_⟩
  intro r
  by_cases hs : s = []
  · subst hs
    have hnothing : ofText [] = ⟨[], []⟩ :=
      (describes_iff.1 (.plain Marker.absent_nil.unopened)).symm
    have hscan : r = ([], empty) := scan_of_step?_eq_none (t := empty) rfl
    rw [hnothing, hscan]
    exact ⟨rfl, rfl, rfl⟩
  · obtain ⟨hfound, hsegments, hopened⟩ := scanned_ofParts [] hx
    rw [← append_empty hs, hx.continued_eq hs] at hfound hsegments
    rw [← append_empty hs] at hopened
    have hsegments : r.2.segments = numbered ((ofText s).fragments.map Fragment.part) := hsegments
    refine ⟨hsegments, ?_, hopened⟩
    rw [hsegments, Fragment.flatMap_crossings_numbered]
    exact hfound

end Transcript

end ChatRelay
