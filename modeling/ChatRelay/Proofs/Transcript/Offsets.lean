import ChatRelay.Proofs.Transcript.Markers

/-!
# Transcripts at byte offsets

Markers are found and segments are cut at byte offsets of UTF-8 text. An offset past the end of a
text, or inside of a character, cuts nothing, and neither does the place of a segment that is not
there. This module gives every operation on transcripts in that form: it fails where such an offset
or place is used, where an offset falls short of another that is taken off it, where the text to be
moved is not an end of the current segment, and where a scan would not end.

Main result: whatever is done to an empty transcript, in any order and with any text, it stays sound
and no operation fails (`foldlM_editAt?_empty`).
-/

namespace ChatRelay

open Json (Value Object)

namespace Text

/-! ### Offsets in a text -/

/-- The number of bytes of a text. -/
def size : List Char → Nat
  | [] => 0
  | c :: cs => c.utf8Size + size cs

/-- The text before and after an offset, if the offset is not past the end nor inside of a
character. -/
def divide? : List Char → Nat → Option (List Char × List Char)
  | s, 0 => some ([], s)
  | [], _ + 1 => none
  | c :: cs, n + 1 =>
    if c.utf8Size ≤ n + 1 then
      (divide? cs (n + 1 - c.utf8Size)).map fun (before, after) => (c :: before, after)
    else none

@[simp] theorem size_nil : size [] = 0 := rfl

@[simp] theorem size_cons (c : Char) (s : List Char) : size (c :: s) = c.utf8Size + size s := rfl

/-- The sizes of texts in a row add up. -/
@[simp] theorem size_append (s t : List Char) : size (s ++ t) = size s + size t := by
  induction s with
  | nil => simp
  | cons c s ih => rw [List.cons_append, size_cons, size_cons, ih, Nat.add_assoc]

/-- Only the empty text has no bytes. -/
theorem size_eq_zero_iff {s : List Char} : size s = 0 ↔ s = [] := by
  cases s with
  | nil => simp
  | cons c cs =>
    have := c.utf8Size_pos
    simp only [size_cons, reduceCtorEq, iff_false]
    omega

/-- An offset divides a text exactly where the bytes of the first part end. -/
theorem divide?_eq_some_iff {s before after : List Char} {n : Nat} :
    divide? s n = some (before, after) ↔ s = before ++ after ∧ size before = n := by
  fun_induction divide? s n generalizing before with
  | case1 s =>
    rw [size_eq_zero_iff, Option.some.injEq, Prod.mk.injEq]
    constructor
    · rintro ⟨rfl, rfl⟩
      exact ⟨rfl, rfl⟩
    · rintro ⟨rfl, rfl⟩
      exact ⟨rfl, rfl⟩
  | case2 n =>
    refine ⟨nofun, ?_⟩
    rintro ⟨h, hsize⟩
    obtain ⟨rfl, rfl⟩ := List.append_eq_nil_iff.1 h.symm
    cases hsize
  | case3 c cs n hc ih =>
    rw [Option.map_eq_some_iff]
    constructor
    · rintro ⟨⟨b, a⟩, hb, he⟩
      cases he
      obtain ⟨rfl, hsize⟩ := ih.1 hb
      refine ⟨rfl, ?_⟩
      rw [size_cons]
      omega
    · rintro ⟨h, hsize⟩
      cases before with
      | nil => cases hsize
      | cons b bs =>
        obtain ⟨rfl, rfl⟩ := List.cons.inj h
        rw [size_cons] at hsize
        exact ⟨(bs, after), ih.2 ⟨rfl, by omega⟩, rfl⟩
  | case4 c cs n hc =>
    refine ⟨nofun, ?_⟩
    rintro ⟨h, hsize⟩
    cases before with
    | nil => cases hsize
    | cons b bs =>
      -- The offset would fall between the bytes of the first character.
      obtain ⟨rfl, rfl⟩ := List.cons.inj h
      rw [size_cons] at hsize
      omega

/-- Two texts in a row are divided at the size of the first. -/
@[simp] theorem divide?_append (before after : List Char) :
    divide? (before ++ after) (size before) = some (before, after) :=
  divide?_eq_some_iff.2 ⟨rfl, rfl⟩

/-- Of two ways to divide a text, the one with the smaller offset leaves more behind it. -/
theorem length_lt_of_size_lt {s t s' t' : List Char} (h : s' ++ t' = s ++ t)
    (hsize : size s < size s') : t'.length < t.length := by
  rw [List.append_eq_append_iff] at h
  rcases h with ⟨w, rfl, -⟩ | ⟨w, rfl, rfl⟩
  · rw [size_append] at hsize
    omega
  · have hw : w ≠ [] := by
      rintro rfl
      simp at hsize
    have := List.length_pos_iff.2 hw
    rw [List.length_append]
    omega

/-- The number of bytes is that of the string of the characters. -/
theorem utf8ByteSize_ofList (s : List Char) : (String.ofList s).utf8ByteSize = size s := by
  induction s with
  | nil => simp
  | cons c cs ih =>
    rw [← List.singleton_append, String.ofList_append, String.utf8ByteSize_append, ih]
    simp

/-- The offsets that divide a text are the valid positions of the string. -/
theorem isSome_divide?_iff (s : List Char) (n : Nat) :
    (divide? s n).isSome ↔ (⟨n⟩ : String.Pos.Raw).IsValid (String.ofList s) := by
  simp only [String.Pos.Raw.isValid_ofList, Option.isSome_iff_exists, utf8ByteSize_ofList]
  constructor
  · rintro ⟨⟨before, after⟩, h⟩
    obtain ⟨rfl, hsize⟩ := divide?_eq_some_iff.1 h
    exact ⟨before.length, by rw [List.take_left, hsize]⟩
  · rintro ⟨i, hi⟩
    exact ⟨(s.take i, s.drop i), divide?_eq_some_iff.2 ⟨(List.take_append_drop i s).symm, hi.symm⟩⟩

end Text

namespace Marker

/-! ### Offsets of markers -/

/-- The offset of the first opening marker, and the marker. -/
def offsetOfOpening? (s : List Char) : Option (Nat × Marker) :=
  (all.filterMap fun m =>
    (Text.cutAt? m.opening s).map fun p => (Text.size p.1, m)).minOn? Prod.fst

/-- The first offset, among the last that a part of an opening marker can begin at, from which on
the text is the beginning of one; else the offset of the end. -/
def offsetOfPartial (s : List Char) : Nat :=
  let longest := (all.map fun m => Text.size m.opening).max?.getD 0
  let floor := Text.size s - (longest - 1)
  let offset? := (List.range' floor (Text.size s - floor)).find? fun n =>
    (Text.divide? s n).any fun p => all.any fun m => p.2.isPrefixOf m.opening
  offset?.getD (Text.size s)

/-- Of the first openings of the two kinds of block, the one with the smaller offset counts, and for
equal offsets the first kind. -/
theorem offsetOfOpening?_eq_ite (s : List Char) :
    offsetOfOpening? s =
      match Text.cutAt? think.opening s, Text.cutAt? tool.opening s with
      | none, none => none
      | some p, none => some (Text.size p.1, think)
      | none, some q => some (Text.size q.1, tool)
      | some p, some q =>
        if Text.size p.1 ≤ Text.size q.1 then some (Text.size p.1, think)
        else some (Text.size q.1, tool) := by
  unfold offsetOfOpening? all
  cases hthink : Text.cutAt? think.opening s <;> cases htool : Text.cutAt? tool.opening s <;>
    simp [List.minOn?, minOn, hthink, htool, apply_ite some]

/-- The first of the openings that are found for each kind of block is the first of all. -/
theorem offsetOfOpening?_eq (s : List Char) :
    offsetOfOpening? s = (findOpening? s).map fun (before, m, _) => (Text.size before, m) := by
  rw [offsetOfOpening?_eq_ite]
  fun_induction findOpening? s with
  | case1 => rfl
  | case2 c cs m rest h =>
    have hs := openingAt?_eq_some_iff.1 h
    cases m with
    | think =>
      have hat : Text.after? think.opening (c :: cs) = some rest := Text.after?_eq_some_iff.2 hs
      rw [Text.cutAt?, hat]
      cases Text.cutAt? tool.opening (c :: cs) <;> simp
    | tool =>
      have hat : Text.after? tool.opening (c :: cs) = some rest := Text.after?_eq_some_iff.2 hs
      have hnot : Text.after? think.opening (c :: cs) = none := by
        rw [hs]
        rfl
      have := c.utf8Size_pos
      rw [Text.cutAt?, Text.cutAt?, hat, hnot]
      cases Text.cutAt? think.opening cs with
      | none => rfl
      | some p => simp [Nat.ne_of_gt this]
  | case3 c cs h ih =>
    have hnot (m : Marker) : Text.after? m.opening (c :: cs) = none := by
      rw [Option.eq_none_iff_forall_ne_some]
      intro rest hrest
      rw [openingAt?_eq_some_iff.2 (Text.after?_eq_some_iff.1 hrest)] at h
      cases h
    rw [Text.cutAt?, Text.cutAt?, hnot, hnot, Option.map_map]
    have ih' := congrArg (Option.map fun p : Nat × Marker => (c.utf8Size + p.1, p.2)) ih
    rw [Option.map_map] at ih'
    refine Eq.trans ?_ (ih'.trans ?_)
    · cases Text.cutAt? think.opening cs <;> cases Text.cutAt? tool.opening cs <;> simp
      split <;> simp
    · cases findOpening? cs <;> simp

/-- The text from an offset before what may become an opening marker does not begin one. -/
theorem not_isPrefix_opening {s before after : List Char} (h : findOpening? s = none)
    (hs : s = before ++ after) (hlen : (partialOpening s).length < after.length) (m : Marker) :
    ¬after <+: m.opening := by
  intro hbegin
  by_cases hwhole : after = m.opening
  · refine findOpening?_eq_none_iff.1 h m ⟨before, [], ?_⟩
    rw [hs, hwhole, List.append_nil]
  · have hne : after ≠ [] := by
      rintro rfl
      exact Nat.not_lt_zero _ hlen
    have hle : after.length ≤ (partialOpening s).length :=
      (longestBegun_partialOpening s).length_le after ⟨before, hs.symm⟩ ⟨hne, m, hbegin, hwhole⟩
    omega

/-- What may become an opening marker is the beginning of one, and not the whole. -/
theorem exists_opening_of_partialOpening {s : List Char} (h : partialOpening s ≠ []) :
    ∃ (m : Marker) (w : List Char), m.opening = partialOpening s ++ w ∧ w ≠ [] := by
  obtain ⟨-, m, ⟨w, hw⟩, hne⟩ := (longestBegun_partialOpening s).begun h
  refine ⟨m, w, hw.symm, ?_⟩
  rintro rfl
  exact hne (by rw [← hw, List.append_nil])

/-- Where no opening marker is found, the offset divides the text before what may become one. -/
theorem divide?_offsetOfPartial {s : List Char} (h : findOpening? s = none) :
    ∃ gone, Text.divide? s (offsetOfPartial s) = some (gone, partialOpening s) := by
  obtain ⟨gone, hgone⟩ := partialOpening_isSuffix s
  refine ⟨gone, ?_⟩
  suffices hoffset : offsetOfPartial s = Text.size gone by
    rw [hoffset, Text.divide?_eq_some_iff]
    exact ⟨hgone.symm, rfl⟩
  have hsize : Text.size s = Text.size gone + Text.size (partialOpening s) := by
    rw [← Text.size_append, hgone]
  -- At an earlier offset, the text does not begin an opening marker.
  have hearlier (n : Nat) (hn : n < Text.size gone) :
      ((Text.divide? s n).any fun p => all.any fun m => p.2.isPrefixOf m.opening) = false := by
    cases hdivide : Text.divide? s n with
    | none => rfl
    | some p =>
      obtain ⟨before, after⟩ := p
      obtain ⟨hs, rfl⟩ := Text.divide?_eq_some_iff.1 hdivide
      have hlen := Text.length_lt_of_size_lt (hgone.trans hs) hn
      rw [Option.any_some, List.any_eq_false]
      intro m _
      rw [List.isPrefixOf_iff_prefix]
      exact not_isPrefix_opening h hs hlen m
  have hlongest : (all.map fun m => Text.size m.opening).max?.getD 0 = 7 := by decide
  simp only [offsetOfPartial, hlongest]
  by_cases hp : partialOpening s = []
  · rw [hp, Text.size_nil] at hsize
    rw [List.find?_range'_eq_none.2, Option.getD_none, hsize]
    · rfl
    · intro n hn hlt
      rw [hearlier n (by omega)]
      rfl
  · obtain ⟨m, w, hm, hw⟩ := exists_opening_of_partialOpening hp
    have hle : Text.size m.opening ≤ 7 := by cases m <;> decide
    have hpos : 0 < Text.size w := Nat.pos_of_ne_zero fun h => hw (Text.size_eq_zero_iff.1 h)
    have hpos' : 0 < Text.size (partialOpening s) :=
      Nat.pos_of_ne_zero fun h => hp (Text.size_eq_zero_iff.1 h)
    rw [hm, Text.size_append] at hle
    have hdivide : Text.divide? s (Text.size gone) = some (gone, partialOpening s) :=
      Text.divide?_eq_some_iff.2 ⟨hgone.symm, rfl⟩
    rw [List.find?_range'_eq_some.2, Option.getD_some]
    refine ⟨?_, ?_, fun n _ hn => by rw [hearlier n hn]; rfl⟩
    · rw [hdivide, Option.any_some, List.any_eq_true]
      refine ⟨m, by cases m <;> decide, ?_⟩
      rw [List.isPrefixOf_iff_prefix, hm]
      exact List.prefix_append _ _
    · rw [List.mem_range'_1]
      omega

end Marker

namespace Transcript

/-! ### Operations at offsets -/

/-- Fails unless a condition holds. -/
def check (p : Prop) [Decidable p] : Option Unit :=
  if p then some () else none

/-- Takes what the buffer holds from an offset on off the end of the current segment. -/
def takeTailAt? (t : Transcript) (offset : Nat) : Option (List Char × Transcript) := do
  check (offset ≤ Text.size t.buffer)
  match t.current with
  | none => return ([], t)
  | some i =>
    let g ← t.segments[i]?
    let (_, rest) ← Text.divide? t.buffer offset
    check (rest <:+ g.text)
    let (kept, moved) ←
      Text.divide? g.text (Text.size g.text - (Text.size t.buffer - offset))
    return (moved, t.modify i fun g => { g with text := kept })

/-- Cuts the current segment at the offset of an opening marker. -/
def openBlockAt? (t : Transcript) (offset : Nat) (m : Marker) : Option (Boundary × Transcript) := do
  let (before, _) ← Text.divide? t.buffer offset
  let (_, tails) ← Text.divide? t.buffer (offset + Text.size m.opening)
  let (moved, t) ← t.takeTailAt? offset
  let reused ←
    match t.current with
    | none => pure none
    | some i => t.segments[i]?.map fun g => if g.text.isEmpty then some i else none
  let (i, t) :=
    match reused with
    | some i => (i, t.modify i fun g => { g with kind := m.kind })
    | none => (t.segments.length, t.pushNew m.kind)
  let g ← t.segments[i]?
  let t := t.modify i fun g => { g with text := g.text ++ moved }
  let t := { t with current := some i, buffer := tails, opened := some m }
  return ({ kind := m.kind, id := g.id, begins := true, text := before, tails }, t)

/-- Ends the current segment at the offset of a closing marker. -/
def closeBlockAt? (t : Transcript) (offset : Nat) (m : Marker) :
    Option (Boundary × Transcript) := do
  let (inner, _) ← Text.divide? t.buffer offset
  let (_, tails) ← Text.divide? t.buffer (offset + Text.size m.closing)
  let (moved, t) ← t.takeTailAt? (offset + Text.size m.closing)
  let (id, t) ←
    match t.current with
    | none => pure (⟨0⟩, t)
    | some i =>
      t.segments[i]?.map fun g =>
        (g.id, t.modify i fun g =>
          { g with
            kind := m.kind
            props := Table.set g.props "text" (.ofText (Text.trim inner)) })
  let i := t.segments.length
  let t := t.pushNew .text
  check (i < t.segments.length)
  let t := t.modify i fun g => { g with text := moved }
  let t := { t with current := some i, buffer := tails, opened := none }
  return ({ kind := m.kind, id, begins := false, text := inner, tails }, t)

/-- Finds the offset of the next boundary in the buffer and cuts there. -/
def stepAt? (t : Transcript) : Option (Option (Boundary × Transcript)) :=
  match t.opened with
  | none =>
    match Marker.offsetOfOpening? t.buffer with
    | some (offset, m) => (t.openBlockAt? offset m).map some
    | none => some none
  | some m =>
    match Text.cutAt? m.closing t.buffer with
    | some (inner, _) => (t.closeBlockAt? (Text.size inner) m).map some
    | none => some none

/-- Drops what need not be remembered. -/
def settleAt? (t : Transcript) : Option Transcript :=
  match t.opened with
  | none =>
    (Text.divide? t.buffer (Marker.offsetOfPartial t.buffer)).map fun p => { t with buffer := p.2 }
  | some _ => some t

/-- Finds the boundaries in the buffer, in order, and cuts at each, as long as the buffer gets
shorter by that. -/
def scanAt? (t : Transcript) : Option (List Boundary × Transcript) :=
  match t.stepAt? with
  | none => none
  | some none => t.settleAt?.map ([], ·)
  | some (some (b, u)) =>
    if u.buffer.length < t.buffer.length then u.scanAt?.map fun (bs, v) => (b :: bs, v) else none
termination_by t.buffer.length

/-- What can be done to a transcript. -/
inductive Edit where
  | append (s : List Char)
  | appendTo (id : SegmentId) (s : List Char)
  | beginText (s : List Char)
  | scan
  | retype (kind : ContentType) (props : Object) (id : SegmentId)
  | dropEmptyLast
  | resetScan

/-- The transcript after an edit. -/
def edit (t : Transcript) : Edit → Transcript
  | .append s => t.append s
  | .appendTo id s => t.appendTo id s
  | .beginText s => t.beginText s
  | .scan => t.scan.2
  | .retype kind props id => (t.retype? kind props id).getD t
  | .dropEmptyLast => t.dropEmptyLast
  | .resetScan => t.resetScan

/-- Appends to the segment at a place, which must be there. -/
def appendAt? (t : Transcript) (i : Nat) (s : List Char) : Option Transcript :=
  t.segments[i]?.map fun _ => t.appendAt i s

/-- The transcript after an edit at places and offsets, if all of them are there. -/
def editAt? (t : Transcript) : Edit → Option Transcript
  | .append s =>
    if s.isEmpty then some t
    else
      match t.current with
      | some i => t.appendAt? i s
      | none => (t.pushNew .text).appendAt? t.segments.length s
  | .appendTo id s =>
    if s.isEmpty then some t
    else
      match t.indexOf? id with
      | some i => t.appendAt? i s
      | none => (t.push id .text).appendAt? t.segments.length s
  | .beginText s => (t.pushNew .text).segments[t.segments.length]?.map fun _ => t.beginText s
  | .scan => t.scanAt?.map Prod.snd
  | .retype kind props id =>
    match t.indexOf? id with
    | some i =>
      t.segments[i]?.map fun _ =>
        t.modify i fun g => { g with kind, props := Table.setAll g.props props }
    | none => some t
  | .dropEmptyLast => some t.dropEmptyLast
  | .resetScan => some t.resetScan

/-! ### No operation fails -/

variable {before : List Segment} {g : Segment} {after : List Segment} {n : UInt64}
  {buffer : List Char} {opened : Option Marker}

/-- The text to be moved is an end of the current segment, and it begins where a character does. -/
theorem takeTailAt?_writing {kept x moved : List Char} (h : g.text = kept ++ moved)
    (hb : buffer = x ++ moved) :
    (writing before g after n buffer opened).takeTailAt? (Text.size x) =
      some (moved, writing before { g with text := kept } after n buffer opened) := by
  have hget : (writing before g after n buffer opened).segments[before.length]? = some g := by
    simp [writing]
  have hsize : Text.size g.text - (Text.size buffer - Text.size x) = Text.size kept := by
    rw [h, hb, Text.size_append, Text.size_append]
    omega
  have hle : Text.size x ≤ Text.size buffer := by
    rw [hb, Text.size_append]
    omega
  have hsuffix : moved <:+ g.text := ⟨kept, h.symm⟩
  have hrest : Text.divide? buffer (Text.size x) = some (x, moved) := by
    rw [hb, Text.divide?_append]
  have hcut : Text.divide? g.text (Text.size kept) = some (kept, moved) := by
    rw [h, Text.divide?_append]
  have hcurrent : (writing before g after n buffer opened).current = some before.length := rfl
  have hbuffer : (writing before g after n buffer opened).buffer = buffer := rfl
  simp only [takeTailAt?, hcurrent, hbuffer, hget, hsize, hle, hrest, hcut, hsuffix, check, if_true,
    modify_writing, Option.bind_eq_bind, Option.bind_some, Option.pure_def]

/-- A block can be opened at the offset of an opening marker. -/
theorem openBlockAt?_writing {kept x tails : List Char} {m : Marker}
    (h : g.text = kept ++ (m.opening ++ tails)) (hb : buffer = x ++ (m.opening ++ tails)) :
    (writing before g after n buffer opened).openBlockAt? (Text.size x) m =
      some ((writing before g after n buffer opened).openBlock x m tails) := by
  have hbuffer : (writing before g after n buffer opened).buffer = buffer := rfl
  have hbefore : Text.divide? buffer (Text.size x) = some (x, m.opening ++ tails) := by
    rw [hb, Text.divide?_append]
  have htails : Text.divide? buffer (Text.size x + Text.size m.opening) =
      some (x ++ m.opening, tails) := by
    rw [hb, ← Text.size_append, ← List.append_assoc, Text.divide?_append]
  have htake : (writing before g after n buffer opened).takeTailAt? (Text.size x) = _ :=
    takeTailAt?_writing h hb
  rw [openBlock_writing x h]
  simp only [openBlockAt?, hbuffer, hbefore, htails, htake, Option.bind_eq_bind, Option.bind_some]
  by_cases hk : kept = []
  · subst hk
    have hg : g.text = m.opening ++ tails := h
    simp [writing, modify, hg]
  · simp [writing, modify, hk, pushNew_eq]

/-- A block can be ended at the offset of its closing marker. -/
theorem closeBlockAt?_writing {kept inner tails : List Char} (m : Marker)
    (h : g.text = kept ++ tails) (hb : buffer = inner ++ (m.closing ++ tails)) :
    (writing before g after n buffer opened).closeBlockAt? (Text.size inner) m =
      some ((writing before g after n buffer opened).closeBlock m inner tails) := by
  have hbuffer : (writing before g after n buffer opened).buffer = buffer := rfl
  have hinner : Text.divide? buffer (Text.size inner) = some (inner, m.closing ++ tails) := by
    rw [hb, Text.divide?_append]
  have hb' : buffer = (inner ++ m.closing) ++ tails := by
    rw [hb, List.append_assoc]
  have htails : Text.divide? buffer (Text.size inner + Text.size m.closing) =
      some (inner ++ m.closing, tails) := by
    rw [hb', ← Text.size_append, Text.divide?_append]
  have htake : (writing before g after n buffer opened).takeTailAt?
      (Text.size (inner ++ m.closing)) = _ := takeTailAt?_writing h hb'
  rw [Text.size_append] at htake
  rw [closeBlock_writing m inner h]
  simp only [closeBlockAt?, hbuffer, hinner, htails, htake, Option.bind_eq_bind, Option.bind_some]
  simp [writing, modify, pushNew_eq, check]

variable {t : Transcript}

/-- In a sound transcript, the offset of the next boundary is one to cut at. -/
theorem Sound.stepAt?_eq (ht : t.Sound) : t.stepAt? = some t.step? := by
  -- Either nothing is left to scan, or it is the end of the text of a segment. An offset into the
  -- one is then an offset into the other.
  rcases ht.eq_writing with ⟨-, hbuf⟩ | ⟨before, g, after, n, buffer, opened, rfl, a, ha⟩
  · obtain ⟨segments, current, n, buffer, opened⟩ := t
    cases hbuf
    rcases opened with _ | m | m <;> rfl
  · cases opened with
    | none =>
      have hstep : (writing before g after n buffer none).step? =
          (Marker.findOpening? buffer).map fun (x, m, tails) =>
            (writing before g after n buffer none).openBlock x m tails := rfl
      have hstepAt : (writing before g after n buffer none).stepAt? =
          match Marker.offsetOfOpening? buffer with
          | some (offset, m) =>
            ((writing before g after n buffer none).openBlockAt? offset m).map some
          | none => some none := rfl
      rw [hstep, hstepAt, Marker.offsetOfOpening?_eq]
      cases hfind : Marker.findOpening? buffer with
      | none => rfl
      | some p =>
        obtain ⟨x, m, tails⟩ := p
        have hb : buffer = x ++ (m.opening ++ tails) := by
          rw [Marker.findOpening?_eq_some hfind, List.append_assoc]
        have hg : g.text = (a ++ x) ++ (m.opening ++ tails) := by
          rw [← ha, hb, List.append_assoc]
        simp [openBlockAt?_writing hg hb]
    | some m =>
      have hstep : (writing before g after n buffer (some m)).step? =
          (Text.cutAt? m.closing buffer).map fun (inner, tails) =>
            (writing before g after n buffer (some m)).closeBlock m inner tails := rfl
      have hstepAt : (writing before g after n buffer (some m)).stepAt? =
          match Text.cutAt? m.closing buffer with
          | some (inner, _) =>
            ((writing before g after n buffer (some m)).closeBlockAt? (Text.size inner) m).map some
          | none => some none := rfl
      rw [hstep, hstepAt]
      cases hcut : Text.cutAt? m.closing buffer with
      | none => rfl
      | some p =>
        obtain ⟨inner, tails⟩ := p
        have hb : buffer = inner ++ (m.closing ++ tails) := by
          rw [Text.cutAt?_eq_some hcut, List.append_assoc]
        have hg : g.text = (a ++ (inner ++ m.closing)) ++ tails := by
          rw [← ha, hb]
          simp
        simp [closeBlockAt?_writing m hg hb]

/-- Where no boundary is found, what is forgotten ends where a character does. -/
theorem settleAt?_eq (h : t.step? = none) : t.settleAt? = some t.settle := by
  obtain ⟨segments, current, n, buffer, opened⟩ := t
  cases opened with
  | some m => rfl
  | none =>
    obtain ⟨gone, hgone⟩ := Marker.divide?_offsetOfPartial (Option.map_eq_none_iff.1 h)
    exact Option.map_eq_some_iff.2 ⟨_, hgone, rfl⟩

/-- A sound transcript can be scanned at offsets, and the scan ends. -/
theorem Sound.scanAt?_eq (ht : t.Sound) : t.scanAt? = some t.scan := by
  fun_induction Transcript.scan t with
  | case1 t h =>
    rw [scanAt?, ht.stepAt?_eq, h]
    simp [settleAt?_eq h]
  | case2 t b u h hlt bs v hv ih =>
    rw [scanAt?, ht.stepAt?_eq, h]
    simp [hlt, ih (ht.step? h), hv]

/-- Text goes to a segment that is there. -/
theorem appendAt?_eq {i : Nat} (hi : i < t.segments.length) (s : List Char) :
    t.appendAt? i s = some (t.appendAt i s) := by
  simp [appendAt?, hi]

/-- A segment that is found for an id is there. -/
theorem lt_of_indexOf? {id : SegmentId} {i : Nat} (h : t.indexOf? id = some i) :
    i < t.segments.length :=
  (List.findIdx?_eq_some_iff_getElem.1 h).1

/-- A sound transcript stays sound at any edit. -/
theorem Sound.edit (ht : t.Sound) (e : Edit) : (t.edit e).Sound := by
  cases e with
  | append s => exact ht.append s
  | appendTo id s => exact ht.appendTo id s
  | beginText s => exact sound_beginText t s
  | scan => exact ht.scan
  | retype kind props id =>
    show ((t.retype? kind props id).getD t).Sound
    cases h : t.retype? kind props id with
    | none => exact ht
    | some u => exact ht.retype? h
  | dropEmptyLast => exact ht.dropEmptyLast
  | resetScan => exact ht.resetScan

/-- Edits keep a transcript sound. -/
theorem Sound.foldl (ht : t.Sound) (edits : List Edit) : (edits.foldl Transcript.edit t).Sound := by
  induction edits generalizing t with
  | nil => exact ht
  | cons e es ih => exact ih (ht.edit e)

/-- No edit of a sound transcript fails at its places and offsets. -/
theorem Sound.editAt?_eq (ht : t.Sound) (e : Edit) : t.editAt? e = some (t.edit e) := by
  cases e with
  | append s =>
    simp only [editAt?, Transcript.edit, Transcript.append]
    split
    · rfl
    · cases hc : t.current with
      | some i => exact appendAt?_eq (ht.current_lt i hc) s
      | none => exact appendAt?_eq (by simp [pushNew_eq]) s
  | appendTo id s =>
    simp only [editAt?, Transcript.edit, Transcript.appendTo]
    split
    · rfl
    · cases hi : t.indexOf? id with
      | some i => exact appendAt?_eq (lt_of_indexOf? hi) s
      | none => exact appendAt?_eq (by simp [push]) s
  | beginText s => simp [editAt?, Transcript.edit, pushNew_eq]
  | scan => simp [editAt?, Transcript.edit, ht.scanAt?_eq]
  | retype kind props id =>
    simp only [editAt?, Transcript.edit, Transcript.retype?]
    cases hi : t.indexOf? id with
    | some i => simp [lt_of_indexOf? hi]
    | none => rfl
  | dropEmptyLast => rfl
  | resetScan => rfl

/-- Whatever is done to an empty transcript, its current segment is one of its segments and its
buffer an end of that segment's text. So no place is missed, no offset lies outside of a text or
inside of a character, and what is to be moved is always an end of the current segment: at places
and offsets nothing fails, and the transcript is the same. -/
theorem foldlM_editAt?_empty (edits : List Edit) :
    (edits.foldl edit empty).Sound ∧
      edits.foldlM editAt? empty = some (edits.foldl edit empty) := by
  suffices h : ∀ t : Transcript, t.Sound →
      (edits.foldl edit t).Sound ∧ edits.foldlM editAt? t = some (edits.foldl edit t) from
    h empty sound_empty
  induction edits with
  | nil => exact fun t ht => ⟨ht, rfl⟩
  | cons e es ih =>
    intro t ht
    obtain ⟨hsound, hfold⟩ := ih (t.edit e) (ht.edit e)
    refine ⟨hsound, ?_⟩
    rw [List.foldlM_cons, ht.editAt?_eq]
    exact hfold

end Transcript

end ChatRelay
