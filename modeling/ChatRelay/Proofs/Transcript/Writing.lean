import ChatRelay.Proofs.Transcript.Beginnings
import ChatRelay.Transcript.Scan

/-!
# Where a transcript writes

A transcript writes in its current segment, which may stand anywhere among the others, and the scan
buffer is an end of that segment's text. `Transcript.Sound` says so, and `Transcript.writing` is the
form of every sound transcript that has a current segment: the segments before it, the segment, and
those after it. Each operation on a transcript of that form has an equation, and from the equations
follows that every operation keeps a transcript sound.
-/

namespace ChatRelay

open Json (Value Object)

/-- A change behind the items of a first list is a change of the second list. -/
theorem modify_length_add_append {α : Type} (l r : List α) (k : Nat) (f : α → α) :
    (l ++ r).modify (l.length + k) f = l ++ r.modify k f := by
  induction l with
  | nil => simp
  | cons a l ih =>
    rw [List.length_cons, Nat.add_right_comm, List.cons_append, List.modify_succ_cons, ih,
      List.cons_append]

/-- The change of the item between two lists. -/
@[simp] theorem modify_length_append_cons {α : Type} (l r : List α) (a : α) (f : α → α) :
    (l ++ a :: r).modify l.length f = l ++ f a :: r :=
  modify_length_add_append l (a :: r) 0 f

/-- The change of a last item. -/
@[simp] theorem modify_append_cons_append_singleton {α : Type} (l r : List α) (a b : α)
    (f : α → α) :
    (l ++ a :: (r ++ [b])).modify (l.length + (r.length + 1)) f = l ++ a :: (r ++ [f b]) := by
  simp [modify_length_add_append]

namespace Transcript

/-- The current segment is one of the transcript, and what is remembered for the scan is an end of
its text. Without a current segment nothing is remembered. -/
structure Sound (t : Transcript) : Prop where
  current_lt : ∀ i, t.current = some i → i < t.segments.length
  buffer_isSuffix : ∀ g, t.currentSegment? = some g → t.buffer <:+ g.text
  buffer_eq_nil : t.current = none → t.buffer = []

/-- The transcript whose current segment stands between other segments. -/
def writing (before : List Segment) (g : Segment) (after : List Segment) (lastId : UInt64)
    (buffer : List Char) (opened : Option Marker) : Transcript where
  segments := before ++ g :: after
  current := some before.length
  lastId := lastId
  buffer := buffer
  opened := opened

variable (before : List Segment) (g : Segment) (after : List Segment) (n : UInt64)
  (buffer : List Char) (opened : Option Marker)

/-- The current segment is the one that is being written. -/
@[simp] theorem currentSegment?_writing :
    (writing before g after n buffer opened).currentSegment? = some g := by
  simp [currentSegment?, writing]

/-- To change the segment that is being written leaves the others as they are. -/
@[simp] theorem modify_writing (f : Segment → Segment) :
    (writing before g after n buffer opened).modify before.length f =
      writing before (f g) after n buffer opened := by
  simp [modify, writing]

variable {before g after n buffer opened}

/-- A transcript that writes in a segment is sound if its buffer is an end of that segment. -/
theorem sound_writing (h : buffer <:+ g.text) :
    (writing before g after n buffer opened).Sound where
  current_lt := by
    rintro i ⟨⟩
    simp [writing]
  buffer_isSuffix := by
    intro s hs
    rw [currentSegment?_writing] at hs
    cases hs
    exact h
  buffer_eq_nil := nofun

/-- A sound transcript has no current segment and remembers nothing, or it writes in a segment. -/
theorem Sound.eq_writing {t : Transcript} (ht : t.Sound) :
    (t.current = none ∧ t.buffer = []) ∨
      ∃ before g after n buffer opened,
        t = writing before g after n buffer opened ∧ buffer <:+ g.text := by
  obtain ⟨segments, current, n, buffer, opened⟩ := t
  cases current with
  | none => exact .inl ⟨rfl, ht.buffer_eq_nil rfl⟩
  | some i =>
    have hi : i < segments.length := ht.current_lt i rfl
    have hsplit : segments.take i ++ segments[i] :: segments.drop (i + 1) = segments := by
      rw [List.getElem_cons_drop, List.take_append_drop]
    have hlen : (segments.take i).length = i := by
      rw [List.length_take]
      omega
    refine .inr ⟨segments.take i, segments[i], segments.drop (i + 1), n, buffer, opened, ?_, ?_⟩
    · simp only [writing, hsplit, hlen]
    · exact ht.buffer_isSuffix _ (List.getElem?_eq_getElem hi)

/-! ### Appending -/

/-- Text appended to the segment at a place goes to its end. What was remembered is forgotten if
another segment was the current one. -/
theorem appendAt_eq {t : Transcript} (h : t.segments = before ++ g :: after) (s : List Char) :
    t.appendAt before.length s =
      writing before { g with text := g.text ++ s } after t.lastId
        (if t.current = some before.length then t.buffer ++ s else s)
        (if t.current = some before.length then t.opened else none) := by
  by_cases hc : t.current = some before.length
  · simp [appendAt, select, hc, modify, h, writing]
  · simp [appendAt, select, hc, modify, h, writing, resetScan]

/-- Text appended without naming a segment goes to the current one and to the buffer. -/
theorem append_writing (s : List Char) :
    (writing before g after n buffer opened).append s =
      writing before { g with text := g.text ++ s } after n (buffer ++ s) opened := by
  cases s with
  | nil => simp [append, writing]
  | cons c cs =>
    simp [append, appendAt, select, modify, writing]

/-- A new segment of a transcript is its last one. -/
theorem pushNew_eq (t : Transcript) (kind : ContentType) :
    t.pushNew kind =
      { t with
        segments := t.segments ++ [⟨⟨t.lastId + 1⟩, kind, [], [], t.segments.length⟩]
        lastId := t.lastId + 1 } := by
  have h : max (t.lastId + 1) (t.lastId + 1) = t.lastId + 1 := by
    show (if _ then _ else _) = _
    split <;> rfl
  simp [pushNew, push, h]

/-- Without a current segment, text makes a new one at the end. -/
theorem append_of_current_eq_none {t : Transcript} (h : t.current = none) {s : List Char}
    (hs : s ≠ []) :
    t.append s =
      writing t.segments ⟨⟨t.lastId + 1⟩, .text, s, [], t.segments.length⟩ [] (t.lastId + 1) s
        none := by
  obtain ⟨c, cs, rfl⟩ := List.exists_cons_of_ne_nil hs
  simp [append, h, pushNew_eq, appendAt, select, resetScan, modify, writing]

/-- A text segment that is begun is the last one and the current one, whatever was current. -/
theorem beginText_eq_writing (t : Transcript) (s : List Char) :
    t.beginText s =
      writing t.segments ⟨⟨t.lastId + 1⟩, .text, s, [], t.segments.length⟩ [] (t.lastId + 1) s
        none := by
  simp [beginText, pushNew_eq, resetScan, modify, writing]

/-! ### Cutting -/

/-- The end of the current segment is taken off it. -/
theorem takeTail_writing {kept moved : List Char} (h : g.text = kept ++ moved) :
    (writing before g after n buffer opened).takeTail moved.length =
      (moved, writing before { g with text := kept } after n buffer opened) := by
  have hcurrent : (writing before g after n buffer opened).current = some before.length := rfl
  have hlen : g.text.length - moved.length = kept.length := by
    rw [h, List.length_append]
    omega
  simp only [takeTail, hcurrent, currentSegment?_writing, modify_writing, hlen]
  rw [h, List.drop_left, List.take_left]

/-- At an opening marker the block gets a segment of its own at the end, or the current one if that
holds nothing else. -/
theorem openBlock_writing {kept tails : List Char} {m : Marker} (s : List Char)
    (h : g.text = kept ++ (m.opening ++ tails)) :
    (writing before g after n buffer opened).openBlock s m tails =
      if kept = [] then
        (⟨m.kind, g.id, true, s, tails⟩,
          writing before { g with kind := m.kind } after n tails (some m))
      else
        (⟨m.kind, ⟨n + 1⟩, true, s, tails⟩,
          writing (before ++ { g with text := kept } :: after)
            ⟨⟨n + 1⟩, m.kind, m.opening ++ tails, [], before.length + (after.length + 1)⟩ []
            (n + 1) tails (some m)) := by
  have htail : (writing before g after n buffer opened).takeTail (m.opening ++ tails).length = _ :=
    takeTail_writing h
  rw [List.length_append] at htail
  unfold openBlock
  rw [htail]
  by_cases hk : kept = []
  · subst hk
    have hg : g.text = m.opening ++ tails := h
    simp [writing, modify, currentId?, currentSegment?, Option.filter_some, hg]
  · simp [writing, modify, pushNew_eq, currentId?, currentSegment?, Option.filter_some, hk]

/-- At a closing marker the block ends, and the text after it begins a new segment at the end. -/
theorem closeBlock_writing {kept tails : List Char} (m : Marker) (inner : List Char)
    (h : g.text = kept ++ tails) :
    (writing before g after n buffer opened).closeBlock m inner tails =
      (⟨m.kind, g.id, false, inner, tails⟩,
        writing
          (before ++ { g with
            kind := m.kind
            text := kept
            props := Table.set g.props "text" (.ofText (Text.trim inner)) } :: after)
          ⟨⟨n + 1⟩, .text, tails, [], before.length + (after.length + 1)⟩ [] (n + 1) tails
          none) := by
  have htail : (writing before g after n buffer opened).takeTail tails.length = _ :=
    takeTail_writing h
  unfold closeBlock
  rw [htail]
  simp [writing, modify, pushNew_eq, currentId?, currentSegment?]

/-- Where an opening marker is found in the buffer, it stands in the current segment, with the same
text after it. -/
theorem exists_eq_opening (hb : buffer <:+ g.text) {s tails : List Char} {m : Marker}
    (h : Marker.findOpening? buffer = some (s, m, tails)) :
    ∃ kept, g.text = kept ++ (m.opening ++ tails) := by
  obtain ⟨a, ha⟩ := hb
  exact ⟨a ++ s, by rw [← ha, Marker.findOpening?_eq_some h]; simp⟩

/-- The same for a word that is found in the buffer, with all that stands before its end. -/
theorem exists_eq_closing (hb : buffer <:+ g.text) {word inner tails : List Char}
    (h : Text.cutAt? word buffer = some (inner, tails)) :
    ∃ kept, g.text = kept ++ tails := by
  obtain ⟨a, ha⟩ := hb
  exact ⟨a ++ (inner ++ word), by rw [← ha, Text.cutAt?_eq_some h]; simp⟩

/-! ### What stays sound -/

variable {t : Transcript}

/-- A transcript in which nothing has been said is sound. -/
theorem sound_empty : empty.Sound where
  current_lt := nofun
  buffer_isSuffix := nofun
  buffer_eq_nil _ := rfl

/-- A sound transcript stays sound when nothing is remembered any more. -/
theorem Sound.resetScan (ht : t.Sound) : t.resetScan.Sound where
  current_lt := ht.current_lt
  buffer_isSuffix _ _ := List.nil_suffix
  buffer_eq_nil _ := rfl

/-- A change of a segment that keeps its text keeps a transcript sound. -/
theorem Sound.modify (ht : t.Sound) (i : Nat) {f : Segment → Segment}
    (hf : ∀ g, (f g).text = g.text) : (t.modify i f).Sound where
  current_lt j hj := by
    show j < (t.segments.modify i f).length
    rw [List.length_modify]
    exact ht.current_lt j hj
  buffer_isSuffix g hg := by
    obtain ⟨j, hj, hget⟩ := Option.bind_eq_some_iff.1 hg
    change (t.segments.modify i f)[j]? = some g at hget
    rw [List.getElem?_modify] at hget
    obtain ⟨s, hs, rfl⟩ := Option.map_eq_some_iff.1 hget
    have hsuffix : t.buffer <:+ s.text :=
      ht.buffer_isSuffix s (Option.bind_eq_some_iff.2 ⟨j, hj, hs⟩)
    show t.buffer <:+ _
    split
    · rwa [hf]
    · exact hsuffix
  buffer_eq_nil := ht.buffer_eq_nil

/-- A sound transcript stays sound when a segment gets a type. -/
theorem Sound.retype? (ht : t.Sound) {u : Transcript} {kind : ContentType} {props : Object}
    {id : SegmentId} (h : t.retype? kind props id = some u) : u.Sound := by
  obtain ⟨i, -, rfl⟩ := Option.map_eq_some_iff.1 h
  exact ht.modify i fun _ => rfl

/-- Text can be appended to any segment there is. -/
theorem Sound.appendAt (ht : t.Sound) {i : Nat} (hi : i < t.segments.length) (s : List Char) :
    (t.appendAt i s).Sound := by
  have hsplit : t.segments = t.segments.take i ++ t.segments[i] :: t.segments.drop (i + 1) := by
    rw [List.getElem_cons_drop, List.take_append_drop]
  have hlen : (t.segments.take i).length = i := by
    rw [List.length_take]
    omega
  have h := appendAt_eq hsplit s
  rw [hlen] at h
  rw [h]
  refine sound_writing ?_
  split
  · next hc =>
    have hcurrent : t.currentSegment? = some t.segments[i] := by
      simp [currentSegment?, hc, hi]
    obtain ⟨a, ha⟩ := ht.buffer_isSuffix _ hcurrent
    exact ⟨a, by rw [← ha, List.append_assoc]⟩
  · exact List.suffix_append _ _

/-- A sound transcript stays sound when text is written. -/
theorem Sound.append (ht : t.Sound) (s : List Char) : (t.append s).Sound := by
  by_cases hs : s = []
  · subst hs
    exact ht
  · rcases ht.eq_writing with ⟨hc, -⟩ | ⟨before, g, after, n, buffer, opened, rfl, a, ha⟩
    · rw [append_of_current_eq_none hc hs]
      exact sound_writing List.suffix_rfl
    · rw [append_writing]
      exact sound_writing ⟨a, by rw [← ha, List.append_assoc]⟩

/-- A sound transcript stays sound when text is written to a segment. -/
theorem Sound.appendTo (ht : t.Sound) (id : SegmentId) (s : List Char) :
    (t.appendTo id s).Sound := by
  unfold Transcript.appendTo
  split
  · exact ht
  · split
    · next i hi =>
      obtain ⟨hlt, -⟩ := List.findIdx?_eq_some_iff_getElem.1 hi
      exact ht.appendAt hlt s
    · have hpush : (t.push id .text).Sound := {
        current_lt := fun i hi => by
          have := ht.current_lt i hi
          simp only [push, List.length_append]
          omega
        buffer_isSuffix := fun g hg => by
          obtain ⟨j, hj, hget⟩ := Option.bind_eq_some_iff.1 hg
          have hlt : j < t.segments.length := ht.current_lt j hj
          simp only [push, List.getElem?_append_left hlt] at hget
          exact ht.buffer_isSuffix g (Option.bind_eq_some_iff.2 ⟨j, hj, hget⟩)
        buffer_eq_nil := ht.buffer_eq_nil }
      exact hpush.appendAt (by simp [push]) s

/-- A text that is begun makes any transcript sound. -/
theorem sound_beginText (t : Transcript) (s : List Char) : (t.beginText s).Sound := by
  rw [beginText_eq_writing]
  exact sound_writing List.suffix_rfl

/-- A sound transcript stays sound without an empty last segment. -/
theorem Sound.dropEmptyLast (ht : t.Sound) : t.dropEmptyLast.Sound := by
  unfold Transcript.dropEmptyLast
  split
  · split
    · dsimp only
      split
      · -- The current segment goes: the one before it becomes current, and nothing is remembered.
        refine ⟨fun i hi => ?_, fun _ _ => List.nil_suffix, fun _ => rfl⟩
        change (if t.segments.dropLast.isEmpty then none
          else some (t.segments.dropLast.length - 1)) = some i at hi
        show i < t.segments.dropLast.length
        split at hi
        · cases hi
        · next hne =>
          cases hi
          have := List.length_pos_iff.2 (by simpa using hne : t.segments.dropLast ≠ [])
          omega
      · next hin =>
        have hlt (i : Nat) (hi : t.current = some i) : i < t.segments.dropLast.length := by
          rw [hi, Option.any_some, decide_eq_true_iff] at hin
          omega
        refine ⟨hlt, fun g hg => ?_, ht.buffer_eq_nil⟩
        obtain ⟨j, hj, hget⟩ := Option.bind_eq_some_iff.1 hg
        change t.segments.dropLast[j]? = some g at hget
        have hj' : j < t.segments.length - 1 := by simpa using hlt j hj
        rw [List.getElem?_dropLast, if_pos hj'] at hget
        exact ht.buffer_isSuffix g (Option.bind_eq_some_iff.2 ⟨j, hj, hget⟩)
    · exact ht
  · exact ht

/-- A step of a scan leaves all text where it is, or it cuts the current segment and goes on in a
new segment behind all others, which begins with what was cut off. A segment that is cut keeps some
of its text. -/
theorem step?_writing_cases (hb : buffer <:+ g.text) {u : Transcript} {b : Boundary}
    (h : (writing before g after n buffer opened).step? = some (b, u)) :
    (∃ g' buffer' opened', u = writing before g' after n buffer' opened' ∧
      buffer' <:+ g'.text ∧ g'.text = g.text ∧ g'.id = g.id ∧ g'.order = g.order) ∨
    ∃ g' new buffer' opened', u = writing (before ++ g' :: after) new [] (n + 1) buffer' opened' ∧
      buffer' <:+ new.text ∧ g.text = g'.text ++ new.text ∧ g'.text ≠ [] ∧ g'.id = g.id ∧
      g'.order = g.order := by
  have hlt := step?_buffer_length_lt h
  cases opened with
  | none =>
    obtain ⟨⟨s, m, tails⟩, hfind, heq⟩ := Option.map_eq_some_iff.1 h
    obtain ⟨kept, hg⟩ := exists_eq_opening hb hfind
    simp only [openBlock_writing s hg] at heq
    split at heq
    · next hk =>
      obtain ⟨rfl, rfl⟩ := Prod.mk.inj heq
      refine .inl ⟨_, _, _, rfl, ?_, rfl, rfl, rfl⟩
      show tails <:+ g.text
      rw [hg, ← List.append_assoc]
      exact List.suffix_append _ _
    · next hk =>
      obtain ⟨rfl, rfl⟩ := Prod.mk.inj heq
      exact .inr ⟨_, _, _, _, rfl, List.suffix_append _ _, hg, hk, rfl, rfl⟩
  | some m =>
    obtain ⟨⟨inner, tails⟩, hcut, heq⟩ := Option.map_eq_some_iff.1 h
    obtain ⟨kept, hg⟩ := exists_eq_closing hb hcut
    simp only [closeBlock_writing m inner hg] at heq
    obtain ⟨rfl, rfl⟩ := Prod.mk.inj heq
    -- At least the closing marker is kept, since the rest of the buffer is shorter than the buffer.
    have hk : kept ≠ [] := by
      rintro rfl
      have hle := hb.length_le
      rw [hg, List.nil_append] at hle
      exact absurd hlt (Nat.not_lt.2 hle)
    exact .inr ⟨_, _, _, _, rfl, List.suffix_rfl, hg, hk, rfl, rfl⟩

/-- Without a current segment a scan finds nothing. -/
theorem Sound.step?_eq_none (ht : t.Sound) (h : t.current = none) : t.step? = none := by
  refine Option.eq_none_iff_forall_ne_some.2 ?_
  rintro ⟨b, u⟩ hstep
  have hlt := step?_buffer_length_lt hstep
  rw [ht.buffer_eq_nil h] at hlt
  exact Nat.not_lt_zero _ hlt

/-- A step of a scan keeps a transcript sound. -/
theorem Sound.step? (ht : t.Sound) {u : Transcript} {b : Boundary} (h : t.step? = some (b, u)) :
    u.Sound := by
  rcases ht.eq_writing with ⟨hc, -⟩ | ⟨before, g, after, n, buffer, opened, rfl, hb⟩
  · exact nomatch (ht.step?_eq_none hc).symm.trans h
  · rcases step?_writing_cases hb h with ⟨_, _, _, rfl, hbuffer, -⟩ | ⟨_, _, _, _, rfl, hbuffer, -⟩
    · exact sound_writing hbuffer
    · exact sound_writing hbuffer

/-- To drop what need not be remembered changes no segment. -/
@[simp] theorem segments_settle (t : Transcript) : t.settle.segments = t.segments := by
  unfold Transcript.settle
  split <;> rfl

/-- A sound transcript stays sound when what need not be remembered is dropped. -/
theorem Sound.settle (ht : t.Sound) : t.settle.Sound := by
  unfold Transcript.settle
  split
  · have hsuffix := Marker.partialOpening_isSuffix t.buffer
    refine ⟨ht.current_lt, fun g hg => hsuffix.trans (ht.buffer_isSuffix g hg), fun hc => ?_⟩
    show Marker.partialOpening t.buffer = []
    rw [ht.buffer_eq_nil hc]
    rfl
  · exact ht

/-- A scan keeps a transcript sound. -/
theorem Sound.scan (ht : t.Sound) : t.scan.2.Sound := by
  fun_induction Transcript.scan t with
  | case1 t h => exact ht.settle
  | case2 t b u h hlt bs v hv ih =>
    rw [hv] at ih
    exact ih (ht.step? h)

end Transcript

end ChatRelay
