import ChatRelay.Proofs.Transcript.Writing

/-!
# Scanning as text arrives

Text arrives in pieces, and a scan after each piece finds the same boundaries as one scan of the
whole: what a scan finds stays found when more text follows, and what it leaves in the buffer is
enough to find the rest. Both rest on the form of the markers. An opening marker has its one `<` in
front, so no opening marker begins inside of another, and an end of the text that may become a
marker holds none before it.

Main result: after a scan, appending more text and scanning again gives the transcript of one scan
(`Sound.scan_append`), so that `Transcript.write` takes a text in any pieces (`Sound.write_append`).
-/

namespace ChatRelay

open Json (Value Object)

namespace Text

/-- A word that has been found stays the first one when more text follows. -/
theorem cutAt?_append {word s before rest : List Char} (h : cutAt? word s = some (before, rest))
    (more : List Char) : cutAt? word (s ++ more) = some (before, rest ++ more) := by
  fun_induction cutAt? word s generalizing before with
  | case1 =>
    obtain ⟨r, hr, he⟩ := Option.map_eq_some_iff.1 h
    cases he
    obtain ⟨rfl, rfl⟩ := List.append_eq_nil_iff.1 (after?_eq_some_iff.1 hr).symm
    cases more <;> rfl
  | case2 c cs r hr =>
    cases h
    have hmore : after? word (c :: (cs ++ more)) = some (rest ++ more) := by
      rw [after?_eq_some_iff] at hr ⊢
      rw [← List.append_assoc, ← hr, List.cons_append]
    rw [List.cons_append, cutAt?, hmore]
  | case3 c cs hr ih =>
    obtain ⟨⟨b, r⟩, hb, he⟩ := Option.map_eq_some_iff.1 h
    cases he
    -- The word fits behind `c`, so one that begins at `c` would end inside of the old text.
    have hmore : after? word (c :: (cs ++ more)) = none := by
      rw [Option.eq_none_iff_forall_ne_some]
      intro r' hr'
      rw [after?_eq_some_iff, ← List.cons_append, List.append_eq_append_iff] at hr'
      rcases hr' with ⟨w, hword, -⟩ | ⟨w, hword, -⟩
      · have hlen := congrArg List.length hword
        have hcs := congrArg List.length (cutAt?_eq_some hb)
        simp only [List.length_append, List.length_cons] at hlen hcs
        omega
      · rw [after?_eq_some_iff.2 hword] at hr
        cases hr
    rw [List.cons_append, cutAt?, hmore, ih hb]
    rfl

end Text

namespace Marker

/-! ### Finding an opening marker -/

/-- No opening marker begins another one. -/
theorem opening_append_inj {m n : Marker} {s t : List Char}
    (h : m.opening ++ s = n.opening ++ t) : m = n ∧ s = t := by
  have hmn : m = n := by
    -- The markers differ in their third characters.
    have h₂ := congrArg (fun l : List Char => l[2]?) h
    cases m <;> cases n
    · rfl
    · exact absurd (show some 'h' = some 'o' from h₂) (by decide)
    · exact absurd (show some 'o' = some 'h' from h₂) (by decide)
    · rfl
  subst hmn
  exact ⟨rfl, List.append_cancel_left h⟩

/-- Only the first character of an opening marker is a `<`. -/
theorem opening_eq_cons (m : Marker) : ∃ cs, m.opening = '<' :: cs ∧ '<' ∉ cs := by
  cases m
  · exact ⟨"think>".toList, rfl, by decide⟩
  · exact ⟨"tool>".toList, rfl, by decide⟩

/-- An opening marker is found exactly where the text begins with it. -/
theorem openingAt?_eq_some_iff {s : List Char} {m : Marker} {rest : List Char} :
    openingAt? s = some (m, rest) ↔ s = m.opening ++ rest := by
  refine ⟨openingAt?_eq_some, ?_⟩
  intro h
  cases hs : openingAt? s with
  | some p =>
    obtain ⟨n, r⟩ := p
    obtain ⟨rfl, rfl⟩ := opening_append_inj (h.symm.trans (openingAt?_eq_some hs))
    rfl
  | none =>
    have hm := List.findSome?_eq_none_iff.1 hs m (by cases m <;> decide)
    rw [Option.map_eq_none_iff, Text.after?_eq_some_iff.2 h] at hm
    cases hm

/-- An opening marker that only more text completes has begun with the whole of the old text. -/
theorem beginsOpening_of_openingAt?_append {s more : List Char} (hs : s ≠ [])
    (hnone : openingAt? s = none) {m : Marker} {rest : List Char}
    (h : openingAt? (s ++ more) = some (m, rest)) :
    beginsOpening s = true ∧ ∃ w, m.opening = s ++ w := by
  rw [openingAt?_eq_some_iff, List.append_eq_append_iff] at h
  rcases h with ⟨w, hw, -⟩ | ⟨w, hw, -⟩
  · refine ⟨beginsOpening_iff.2 ⟨hs, m, ⟨w, hw.symm⟩, ?_⟩, w, hw⟩
    rintro rfl
    rw [openingAt?_eq_some_iff.2 (List.append_nil m.opening).symm] at hnone
    cases hnone
  · rw [openingAt?_eq_some_iff.2 hw] at hnone
    cases hnone

/-- An opening marker that has been found stays the first one when more text follows. -/
theorem findOpening?_append {s before : List Char} {m : Marker} {rest : List Char}
    (h : findOpening? s = some (before, m, rest)) (more : List Char) :
    findOpening? (s ++ more) = some (before, m, rest ++ more) := by
  fun_induction findOpening? s generalizing before with
  | case1 => cases h
  | case2 c cs n r hr =>
    cases h
    have hmore : openingAt? (c :: (cs ++ more)) = some (m, rest ++ more) := by
      rw [openingAt?_eq_some_iff] at hr ⊢
      rw [← List.append_assoc, ← hr, List.cons_append]
    rw [List.cons_append, findOpening?, hmore]
  | case3 c cs hr ih =>
    obtain ⟨⟨b, n, r⟩, hb, he⟩ := Option.map_eq_some_iff.1 h
    cases he
    have hmore : openingAt? (c :: (cs ++ more)) = none := by
      rw [Option.eq_none_iff_forall_ne_some]
      rintro ⟨k, r'⟩ hk
      obtain ⟨-, w, hw⟩ :=
        beginsOpening_of_openingAt?_append (List.cons_ne_nil c cs) hr
          (List.cons_append ▸ hk : openingAt? ((c :: cs) ++ more) = some (k, r'))
      -- It would hold the `<` of the marker that has been found.
      obtain ⟨ks, hks, hnot⟩ := k.opening_eq_cons
      obtain ⟨ms, hms, -⟩ := m.opening_eq_cons
      rw [hks, List.cons_append, List.cons.injEq] at hw
      apply hnot
      rw [hw.2, findOpening?_eq_some hb, hms]
      simp
    rw [List.cons_append, findOpening?, hmore, ih hb]
    rfl

/-- What a text may still become is told by the end of it that may become an opening marker. -/
theorem findOpening?_append_of_none {s : List Char} (h : findOpening? s = none)
    (more : List Char) :
    ∃ gone, findOpening? (s ++ more) =
        (findOpening? (partialOpening s ++ more)).map fun (before, m, rest) =>
          (gone ++ before, m, rest) := by
  induction s with
  | nil => exact ⟨[], by simp [partialOpening]⟩
  | cons c cs ih =>
    rw [partialOpening]
    split
    · exact ⟨[], by simp⟩
    · next hbegins =>
      rw [findOpening?] at h
      cases hat : openingAt? (c :: cs) with
      | some p => simp [hat] at h
      | none =>
        rw [hat] at h
        obtain ⟨gone, hgone⟩ := ih (Option.map_eq_none_iff.1 h)
        have hmore : openingAt? (c :: (cs ++ more)) = none := by
          rw [Option.eq_none_iff_forall_ne_some]
          rintro ⟨k, r⟩ hk
          exact hbegins (beginsOpening_of_openingAt?_append (List.cons_ne_nil c cs) hat hk).1
        refine ⟨c :: gone, ?_⟩
        rw [List.cons_append, findOpening?, hmore, hgone, Option.map_map]
        rfl

/-- The end of a text that may become an opening marker lies in the end of its first part that
may, and what follows. -/
theorem partialOpening_append (s more : List Char) :
    partialOpening (s ++ more) = partialOpening (partialOpening s ++ more) := by
  induction s with
  | nil => rfl
  | cons c cs ih =>
    rw [partialOpening]
    split
    · rfl
    · next hbegins =>
      rw [List.cons_append, partialOpening, if_neg, ih]
      intro h
      apply hbegins
      exact beginsOpening_iff.2 ((beginsOpening_iff.1 h).of_append (List.cons_ne_nil c cs))

end Marker

/-- What a boundary marks, whatever text was scanned around it. -/
structure Crossing where
  kind : ContentType
  /-- The segment that holds the block. -/
  id : SegmentId
  begins : Bool
  /-- The content of a block that ends. -/
  body? : Option (List Char)

/-- What a boundary marks. -/
def Boundary.crossing (b : Boundary) : Crossing :=
  ⟨b.kind, b.id, b.begins, if b.begins then none else some b.text⟩

namespace Transcript

/-- What a scan finds, and the transcript that it leaves. -/
def scanned (t : Transcript) : List Crossing × Transcript :=
  (t.scan.1.map Boundary.crossing, t.scan.2)

/-! ### More text after a scan -/

variable {t : Transcript}

/-- What a step of a scan finds, it finds also when more text follows, and the text after the
boundary is then longer by that. -/
theorem Sound.step?_append (ht : t.Sound) {b : Boundary} {u : Transcript}
    (h : t.step? = some (b, u)) (s : List Char) :
    (t.append s).step? = some ({ b with tails := b.tails ++ s }, u.append s) := by
  rcases ht.eq_writing with ⟨-, hbuf⟩ | ⟨before, g, after, n, buffer, opened, rfl, hb⟩
  · have := step?_buffer_length_lt h
    simp [hbuf] at this
  · rw [append_writing]
    cases opened with
    | none =>
      obtain ⟨⟨x, m, tails⟩, hfind, heq⟩ := Option.map_eq_some_iff.1 h
      obtain ⟨kept, hg⟩ := exists_eq_opening hb hfind
      have hgs : g.text ++ s = kept ++ (m.opening ++ (tails ++ s)) := by
        rw [hg]
        simp
      refine Option.map_eq_some_iff.2
        ⟨(x, m, tails ++ s), Marker.findOpening?_append hfind s, ?_⟩
      simp only [openBlock_writing x hg] at heq
      simp only [openBlock_writing (g := { g with text := g.text ++ s }) x hgs]
      split at heq <;> next hk =>
        obtain ⟨rfl, rfl⟩ := Prod.mk.inj heq
        simp [hk, append_writing]
    | some m =>
      obtain ⟨⟨inner, tails⟩, hcut, heq⟩ := Option.map_eq_some_iff.1 h
      obtain ⟨kept, hg⟩ := exists_eq_closing hb hcut
      have hgs : g.text ++ s = kept ++ (tails ++ s) := by
        rw [hg]
        simp
      refine Option.map_eq_some_iff.2 ⟨(inner, tails ++ s), Text.cutAt?_append hcut s, ?_⟩
      simp only [closeBlock_writing m inner hg] at heq
      simp only [closeBlock_writing (g := { g with text := g.text ++ s }) m inner hgs]
      obtain ⟨rfl, rfl⟩ := Prod.mk.inj heq
      simp [append_writing]

/-- A scan that begins with a step goes on from the transcript after it. -/
theorem scan_of_step? {p : Boundary × Transcript} (h : t.step? = some p) :
    t.scan = (p.1 :: p.2.scan.1, p.2.scan.2) := by
  rw [scan]
  split
  · next h' => rw [h] at h'; cases h'
  · next b u h' => rw [h] at h'; cases h'; rfl

/-- A scan that finds nothing only settles what is to be remembered. -/
theorem scan_of_step?_eq_none (h : t.step? = none) : t.scan = ([], t.settle) := by
  rw [scan]
  split
  · rfl
  · next h' => rw [h] at h'; cases h'

/-- Without a further boundary a scan only drops what need not be remembered. -/
theorem scanned_of_step?_eq_none (h : t.step? = none) : t.scanned = ([], t.settle) := by
  rw [scanned, scan_of_step?_eq_none h]
  rfl

/-- With a further boundary a scan crosses it and goes on. -/
theorem scanned_of_step? {p : Boundary × Transcript} (h : t.step? = some p) :
    t.scanned = (p.1.crossing :: p.2.scanned.1, p.2.scanned.2) := by
  rw [scanned, scan_of_step? h]
  rfl

section

variable {before after : List Segment} {g : Segment} {n : UInt64} {buffer : List Char}

/-- While no block is open, a step of a scan opens a block at the first opening marker. -/
theorem step?_writing_of_findOpening? {x tails : List Char} {m : Marker}
    (h : Marker.findOpening? buffer = some (x, m, tails)) :
    (writing before g after n buffer none).step? =
      some ((writing before g after n buffer none).openBlock x m tails) :=
  Option.map_eq_some_iff.2 ⟨_, h, rfl⟩

/-- While no block is open, a scan that finds no opening marker keeps what may become one. -/
theorem scan_writing_of_findOpening?_eq_none (h : Marker.findOpening? buffer = none) :
    (writing before g after n buffer none).scan =
      ([], writing before g after n (Marker.partialOpening buffer) none) :=
  scan_of_step?_eq_none (t := writing before g after n buffer none)
    (Option.map_eq_none_iff.2 h)

/-- While no block is open, a scan opens a block at the first opening marker and goes on in it. -/
theorem scan_writing_of_findOpening? {x tails : List Char} {m : Marker}
    (h : Marker.findOpening? buffer = some (x, m, tails)) :
    (writing before g after n buffer none).scan.2 =
      ((writing before g after n buffer none).openBlock x m tails).2.scan.2 := by
  rw [scan_of_step? (step?_writing_of_findOpening? h)]

/-- How a block is opened does not hang on what was remembered before its marker. -/
theorem openBlock_writing_congr {kept tails : List Char} {m : Marker}
    (h : g.text = kept ++ (m.opening ++ tails)) (buffer' x x' : List Char) :
    ((writing before g after n buffer none).openBlock x m tails).1.crossing =
        ((writing before g after n buffer' none).openBlock x' m tails).1.crossing ∧
      ((writing before g after n buffer none).openBlock x m tails).2 =
        ((writing before g after n buffer' none).openBlock x' m tails).2 := by
  simp only [openBlock_writing _ h]
  split <;> exact ⟨rfl, rfl⟩

end

/-- Where a scan finds nothing, what it leaves in the buffer does for all text to come. -/
theorem Sound.scanned_settle_append (ht : t.Sound) (h : t.step? = none) (s : List Char) :
    (t.settle.append s).scanned = (t.append s).scanned := by
  rcases ht.eq_writing with ⟨hc, hbuf⟩ | ⟨before, g, after, n, buffer, opened, rfl, a, ha⟩
  · have hsettle : t.settle = t := by
      obtain ⟨segments, current, n, buffer, opened⟩ := t
      cases hbuf
      cases opened <;> rfl
    rw [hsettle]
  · cases opened with
    | some m => rfl
    | none =>
      have hnone : Marker.findOpening? buffer = none := Option.map_eq_none_iff.1 h
      have hsettle : (writing before g after n buffer none).settle =
          writing before g after n (Marker.partialOpening buffer) none := rfl
      obtain ⟨gone, hgone⟩ := Marker.findOpening?_append_of_none hnone s
      rw [hsettle, append_writing, append_writing]
      cases hfind : Marker.findOpening? (Marker.partialOpening buffer ++ s) with
      | none =>
        rw [hfind] at hgone
        rw [scanned, scanned, scan_writing_of_findOpening?_eq_none hfind,
          scan_writing_of_findOpening?_eq_none hgone, Marker.partialOpening_append buffer s]
      | some p =>
        obtain ⟨x, m, tails⟩ := p
        rw [hfind] at hgone
        have hsuffix : buffer ++ s <:+ g.text ++ s := ⟨a, by rw [← ha, List.append_assoc]⟩
        obtain ⟨kept, hg⟩ := exists_eq_opening (g := { g with text := g.text ++ s }) hsuffix hgone
        obtain ⟨hcrossing, hopened⟩ := @openBlock_writing_congr before after _ n
          (Marker.partialOpening buffer ++ s) kept tails m hg (buffer ++ s) x (gone ++ x)
        rw [scanned_of_step? (step?_writing_of_findOpening? hfind),
          scanned_of_step? (step?_writing_of_findOpening? hgone), hcrossing, hopened]

/-- More text after a scan, with a scan after it, gives what one scan of all gives: the two scans
find the same between them. -/
theorem Sound.scanned_append (ht : t.Sound) (s : List Char) :
    (t.append s).scanned =
      (t.scanned.1 ++ (t.scan.2.append s).scanned.1, (t.scan.2.append s).scanned.2) := by
  fun_induction Transcript.scan t with
  | case1 t h =>
    rw [← ht.scanned_settle_append h s, scanned_of_step?_eq_none h]
    rfl
  | case2 t b u h hlt bs v hv ih =>
    rw [hv] at ih
    rw [scanned_of_step? (ht.step?_append h s), ih (ht.step? h), scanned_of_step? h]
    rfl

/-- More text after a scan, with a scan after it, gives the transcript of one scan of all. -/
theorem Sound.scan_append (ht : t.Sound) (s : List Char) :
    (t.scan.2.append s).scan.2 = (t.append s).scan.2 :=
  (congrArg Prod.snd (ht.scanned_append s)).symm

/-- A transcript that a piece of text has reached: the text is appended, and boundaries are looked
for. Empty text changes nothing. -/
def write (t : Transcript) (s : List Char) : Transcript :=
  if s = [] then t else (t.append s).scan.2

@[simp] theorem write_nil (t : Transcript) : t.write [] = t := rfl

/-- Text that is not empty is appended and scanned. -/
theorem write_of_ne_nil (t : Transcript) {s : List Char} (h : s ≠ []) :
    t.write s = (t.append s).scan.2 := if_neg h

/-- A sound transcript stays sound when text is written and scanned. -/
theorem Sound.write (ht : t.Sound) (s : List Char) : (t.write s).Sound := by
  unfold Transcript.write
  split
  · exact ht
  · exact (ht.append s).scan

/-- Text after text is text at once. -/
theorem Sound.append_append (ht : t.Sound) (s s' : List Char) :
    (t.append s).append s' = t.append (s ++ s') := by
  rcases ht.eq_writing with ⟨hc, -⟩ | ⟨before, g, after, n, buffer, opened, rfl, -⟩
  · by_cases hs : s = []
    · subst hs
      rfl
    · rw [append_of_current_eq_none hc hs, append_writing,
        append_of_current_eq_none hc (by simp [hs])]
  · simp only [append_writing, List.append_assoc]

/-- A text may be written in pieces. -/
theorem Sound.write_append (ht : t.Sound) (s s' : List Char) :
    (t.write s).write s' = t.write (s ++ s') := by
  by_cases hs : s = []
  · subst hs
    rfl
  by_cases hs' : s' = []
  · subst hs'
    rw [write_nil, List.append_nil]
  · rw [write_of_ne_nil _ hs, write_of_ne_nil _ hs', write_of_ne_nil _ (by simp [hs]),
      (ht.append s).scan_append s', ht.append_append]

end Transcript

end ChatRelay
