import ChatRelay.Proofs.Transcript.Offsets
import Mathlib.Data.List.Nodup
import Mathlib.Data.List.Induction

/-!
# The numbers of segments

A segment is numbered when it is made, by the transcript or by a caller, and keeps its number and
its place. The numbers that a transcript gives are those after the greatest number that any of its
segments has ever had: a segment that is dropped takes nothing back.

`Numbers t u n` says of two transcripts that the second has `n` more segments, which are numbered
on. An edit either does that, or makes a segment with a caller's number, or drops the last segment
(`edit_cases`); all that is said of numbers follows from there. Main result: as long as the numbers
do not run out, no number is that of two segments, and none is given again (`ids_after`).
-/

namespace ChatRelay

open Json (Object)

/-- The id of a segment and its place when it was made. -/
def Segment.label (s : Segment) : SegmentId × Nat := (s.id, s.order)

namespace Transcript

variable {t u v : Transcript} {m n : Nat}

/-- The ids of the segments, in order. -/
def ids (t : Transcript) : List SegmentId := t.segments.map Segment.id

/-- The labels of the segments, in order. -/
def labels (t : Transcript) : List (SegmentId × Nat) := t.segments.map Segment.label

@[simp] theorem length_labels (t : Transcript) : t.labels.length = t.segments.length :=
  List.length_map _

/-- The first parts of the labels are the ids. -/
theorem map_fst_labels (t : Transcript) : t.labels.map Prod.fst = t.ids :=
  List.map_map

/-- The second parts of the labels are the places at which the segments were made. -/
theorem map_snd_labels (t : Transcript) : t.labels.map Prod.snd = t.segments.map Segment.order :=
  List.map_map

/-- The id at a place is the first part of the label there. -/
theorem getElem?_ids (t : Transcript) (i : Nat) : t.ids[i]? = t.labels[i]?.map Prod.fst := by
  rw [← map_fst_labels, List.getElem?_map]

/-! ### Numbering on -/

/-- The labels of new segments after the segments there are. -/
def nextLabels (t : Transcript) (n : Nat) : List (SegmentId × Nat) :=
  (List.range n).map fun k => (⟨t.lastId + .ofNat (k + 1)⟩, t.segments.length + k)

/-- The second transcript has the segments of the first and `n` more, which are numbered on. -/
structure Numbers (t u : Transcript) (n : Nat) : Prop where
  labels_eq : u.labels = t.labels ++ t.nextLabels n
  lastId_eq : u.lastId = t.lastId + .ofNat n

/-- As many segments are new as numbers are given. -/
theorem Numbers.length_eq (h : Numbers t u n) : u.segments.length = t.segments.length + n := by
  rw [← length_labels, h.labels_eq]
  simp [nextLabels]

/-- Nothing new is numbered where the labels stay. -/
theorem numbers_zero (hlabels : u.labels = t.labels) (hlastId : u.lastId = t.lastId) :
    Numbers t u 0 where
  labels_eq := by rw [hlabels, nextLabels, List.range_zero, List.map_nil, List.append_nil]
  lastId_eq := hlastId.trans (UInt64.add_zero _).symm

/-- Numbers that are given first and numbers that are given then are numbers that are given. -/
theorem Numbers.trans (htu : Numbers t u m) (huv : Numbers u v n) : Numbers t v (m + n) where
  labels_eq := by
    have hnext : t.nextLabels m ++ u.nextLabels n = t.nextLabels (m + n) := by
      unfold nextLabels
      rw [List.range_add, List.map_append, List.map_map]
      refine congrArg _ (List.map_congr_left fun k _ => ?_)
      have hnumber : u.lastId + UInt64.ofNat (k + 1) = t.lastId + UInt64.ofNat (m + k + 1) := by
        rw [htu.lastId_eq, UInt64.add_assoc, ← UInt64.ofNat_add, ← Nat.add_assoc]
      have hplace : u.segments.length + k = t.segments.length + (m + k) := by
        rw [htu.length_eq, Nat.add_assoc]
      rw [Function.comp_apply, hnumber, hplace]
    rw [huv.labels_eq, htu.labels_eq, List.append_assoc, hnext]
  lastId_eq := by rw [huv.lastId_eq, htu.lastId_eq, UInt64.add_assoc, ← UInt64.ofNat_add]

/-! ### What operations do to labels -/

/-- A change of one segment that keeps its label keeps all labels. -/
@[simp] theorem labels_modify (t : Transcript) (i : Nat) {f : Segment → Segment}
    (hf : ∀ g, (f g).label = g.label) : (t.modify i f).labels = t.labels := by
  refine List.ext_getElem? fun j => ?_
  unfold labels modify
  rw [List.getElem?_map, List.getElem?_map, List.getElem?_modify]
  cases t.segments[j]? with
  | none => rfl
  | some g =>
    by_cases hi : i = j
    · simp [hi, hf]
    · simp [hi]

/-- Another current segment changes no label. -/
theorem labels_select (t : Transcript) (i : Nat) : (t.select i).labels = t.labels := by
  unfold select
  split <;> rfl

theorem lastId_select (t : Transcript) (i : Nat) : (t.select i).lastId = t.lastId := by
  unfold select
  split <;> rfl

/-- Text at the end of a segment changes no label. -/
theorem labels_appendAt (t : Transcript) (i : Nat) (s : List Char) :
    (t.appendAt i s).labels = t.labels :=
  (labels_modify (t.select i) i (f := fun g => { g with text := g.text ++ s }) fun _ => rfl).trans
    (labels_select t i)

theorem lastId_appendAt (t : Transcript) (i : Nat) (s : List Char) :
    (t.appendAt i s).lastId = t.lastId :=
  lastId_select t i

/-- Taking text off the current segment changes no label. -/
theorem labels_takeTail (t : Transcript) (n : Nat) : (t.takeTail n).2.labels = t.labels := by
  unfold takeTail
  split
  · exact labels_modify t _ fun _ => rfl
  · rfl

theorem lastId_takeTail (t : Transcript) (n : Nat) : (t.takeTail n).2.lastId = t.lastId := by
  unfold takeTail
  split <;> rfl

/-- A new segment has the label of its id and the next place. -/
theorem labels_push (t : Transcript) (id : SegmentId) (kind : ContentType) :
    (t.push id kind).labels = t.labels ++ [(id, t.segments.length)] :=
  List.map_append

/-- A segment that is made with the next number is numbered on. -/
theorem numbers_pushNew (t : Transcript) (kind : ContentType) : Numbers t (t.pushNew kind) 1 where
  labels_eq := by
    rw [pushNew, labels_push]
    rfl
  lastId_eq := by
    rw [pushNew_eq]
    rfl

/-- A change of a segment that keeps its label numbers nothing. -/
theorem Numbers.modify (h : Numbers t u n) (i : Nat) {f : Segment → Segment}
    (hf : ∀ g, (f g).label = g.label) : Numbers t (u.modify i f) n where
  labels_eq := (labels_modify u i hf).trans h.labels_eq
  lastId_eq := h.lastId_eq

/-- What is remembered for finding markers has nothing to do with numbers. -/
theorem Numbers.seen (h : Numbers t u n) (current : Option Nat) (buffer : List Char)
    (opened : Option Marker) : Numbers t { u with current, buffer, opened } n where
  labels_eq := h.labels_eq
  lastId_eq := h.lastId_eq

/-- Taking text off the current segment numbers nothing. -/
theorem numbers_takeTail (t : Transcript) (n : Nat) : Numbers t (t.takeTail n).2 0 :=
  numbers_zero (labels_takeTail t n) (lastId_takeTail t n)

/-! ### What an edit does to labels -/

/-- An opening marker numbers a segment, unless an empty one becomes the block. -/
theorem exists_numbers_openBlock (t : Transcript) (before : List Char) (m : Marker)
    (tails : List Char) : ∃ n, Numbers t (t.openBlock before m tails).2 n := by
  have htail := numbers_takeTail t (m.opening.length + tails.length)
  unfold openBlock
  dsimp only
  split
  · refine ⟨_, ((htail.modify _ ?_).modify _ ?_).seen _ _ _⟩
    · exact fun _ => rfl
    · exact fun _ => rfl
  · refine ⟨_, ((htail.trans (numbers_pushNew _ m.kind)).modify _ ?_).seen _ _ _⟩
    exact fun _ => rfl

/-- A closing marker numbers the text segment that follows. -/
theorem exists_numbers_closeBlock (t : Transcript) (m : Marker) (inner tails : List Char) :
    ∃ n, Numbers t (t.closeBlock m inner tails).2 n := by
  have htail := numbers_takeTail t tails.length
  unfold closeBlock
  dsimp only
  split
  · refine ⟨_, (((htail.modify _ ?_).trans (numbers_pushNew _ .text)).modify _ ?_).seen _ _ _⟩
    · exact fun _ => rfl
    · exact fun _ => rfl
  · refine ⟨_, ((htail.trans (numbers_pushNew _ .text)).modify _ ?_).seen _ _ _⟩
    exact fun _ => rfl

/-- A step of a scan numbers the segments that it makes. -/
theorem exists_numbers_step? {b : Boundary} (h : t.step? = some (b, u)) :
    ∃ n, Numbers t u n := by
  unfold step? at h
  split at h
  · obtain ⟨⟨before, m, tails⟩, -, hopen⟩ := Option.map_eq_some_iff.1 h
    have hu : (t.openBlock before m tails).2 = u := congrArg Prod.snd hopen
    exact hu ▸ exists_numbers_openBlock t before m tails
  · obtain ⟨⟨inner, tails⟩, -, hclose⟩ := Option.map_eq_some_iff.1 h
    have hu : (t.closeBlock _ inner tails).2 = u := congrArg Prod.snd hclose
    exact hu ▸ exists_numbers_closeBlock t _ inner tails

/-- A scan numbers the segments that it makes. -/
theorem exists_numbers_scan (t : Transcript) : ∃ n, Numbers t t.scan.2 n := by
  fun_induction Transcript.scan t with
  | case1 t h =>
    unfold settle
    split
    · exact ⟨0, numbers_zero rfl rfl⟩
    · exact ⟨0, numbers_zero rfl rfl⟩
  | case2 t b u h hlt bs v hv ih =>
    obtain ⟨m, hu⟩ := exists_numbers_step? h
    obtain ⟨n, hscan⟩ := ih
    rw [hv] at hscan
    exact ⟨m + n, hu.trans hscan⟩

/-- How many numbers an edit takes from those that are given in order. -/
def allocations (t : Transcript) : Edit → Nat
  | .append s => if s.isEmpty || t.current.isSome then 0 else 1
  | .beginText _ => 1
  | .scan => t.scan.2.segments.length - t.segments.length
  | _ => 0

/-- An id that is not found is that of no segment. -/
theorem not_mem_ids_of_indexOf? {id : SegmentId} (h : t.indexOf? id = none) : id ∉ t.ids := by
  intro hmem
  obtain ⟨g, hg, hid⟩ := List.mem_map.1 hmem
  have hnot := List.findIdx?_eq_none_iff.1 h g hg
  simp [hid] at hnot

/-- Text numbers a segment if there is none that it can be put into. -/
theorem numbers_append (t : Transcript) (s : List Char) :
    Numbers t (t.append s) (t.allocations (.append s)) := by
  show Numbers t (t.append s) (if s.isEmpty || t.current.isSome then 0 else 1)
  unfold append
  by_cases hs : s.isEmpty
  · rw [if_pos hs, hs]
    exact numbers_zero rfl rfl
  · rw [if_neg hs, Bool.eq_false_iff.2 hs, Bool.false_or]
    cases t.current with
    | none =>
      have happend := (numbers_pushNew t .text).trans
        (numbers_zero (labels_appendAt _ t.segments.length s) (lastId_appendAt _ _ s))
      exact happend
    | some i => exact numbers_zero (labels_appendAt t i s) (lastId_appendAt t i s)

/-- A text that is begun numbers the segment it begins. -/
theorem numbers_beginText (t : Transcript) (s : List Char) :
    Numbers t (t.beginText s) (t.allocations (.beginText s)) := by
  refine ((numbers_pushNew t .text).modify t.segments.length ?_).seen _ _ _
  exact fun _ => rfl

/-- A scan numbers as many segments as there are more after it. -/
theorem numbers_scan (t : Transcript) : Numbers t t.scan.2 (t.allocations .scan) := by
  obtain ⟨n, hn⟩ := exists_numbers_scan t
  have hlength : t.allocations .scan = n := by
    show t.scan.2.segments.length - _ = n
    rw [hn.length_eq, Nat.add_sub_cancel_left]
  rw [hlength]
  exact hn

/-- An edit numbers segments on, makes a segment with a caller's number that no other has, or drops
the last segment. -/
theorem edit_cases (t : Transcript) (e : Edit) :
    Numbers t (t.edit e) (t.allocations e) ∨
      (∃ id, id ∉ t.ids ∧ (t.edit e).labels = t.labels ++ [(id, t.segments.length)] ∧
        (t.edit e).lastId = max t.lastId id.number) ∨
      ((t.edit e).labels = t.labels.dropLast ∧ (t.edit e).lastId = t.lastId) := by
  cases e with
  | append s => exact .inl (numbers_append t s)
  | appendTo id s =>
    show Numbers t (t.appendTo id s) 0 ∨ (∃ new, new ∉ t.ids ∧ (t.appendTo id s).labels = _ ∧
      (t.appendTo id s).lastId = _) ∨ _
    unfold appendTo
    by_cases hs : s.isEmpty
    · rw [if_pos hs]
      exact .inl (numbers_zero rfl rfl)
    · rw [if_neg hs]
      cases hindex : t.indexOf? id with
      | some i => exact .inl (numbers_zero (labels_appendAt t i s) (lastId_appendAt t i s))
      | none =>
        -- Only here is a number given by the caller, and it is one that no segment has.
        refine .inr (.inl ⟨id, not_mem_ids_of_indexOf? hindex, ?_, lastId_appendAt _ _ s⟩)
        exact (labels_appendAt _ _ s).trans (labels_push t id .text)
  | beginText s => exact .inl (numbers_beginText t s)
  | scan => exact .inl (numbers_scan t)
  | retype kind props id =>
    refine .inl ?_
    show Numbers t ((t.retype? kind props id).getD t) 0
    unfold retype?
    cases t.indexOf? id with
    | none => exact numbers_zero rfl rfl
    | some i =>
      refine (numbers_zero rfl rfl).modify i ?_
      exact fun _ => rfl
  | dropEmptyLast =>
    show Numbers t t.dropEmptyLast 0 ∨ _ ∨ t.dropEmptyLast.labels = _ ∧ t.dropEmptyLast.lastId = _
    have hdrop : t.segments.dropLast.map Segment.label = t.labels.dropLast := List.map_dropLast
    unfold dropEmptyLast
    split
    · dsimp only
      split
      · split
        · exact .inr (.inr ⟨hdrop, rfl⟩)
        · exact .inr (.inr ⟨hdrop, rfl⟩)
      · exact .inl (numbers_zero rfl rfl)
    · exact .inl (numbers_zero rfl rfl)
  | resetScan => exact .inl (numbers_zero rfl rfl)

/-! ### What stays true of numbers -/

/-- The ids of new segments after the segments there are. -/
def nextIds (t : Transcript) (n : Nat) : List SegmentId :=
  (List.range n).map fun k => ⟨t.lastId + .ofNat (k + 1)⟩

/-- The ids of what is numbered on are those before, followed by the next ones. -/
theorem Numbers.ids_eq (h : Numbers t u n) : u.ids = t.ids ++ t.nextIds n := by
  rw [← map_fst_labels, ← map_fst_labels, h.labels_eq, List.map_append]
  exact congrArg _ List.map_map

/-- The places of what is numbered on are those before, followed by the next ones. -/
theorem Numbers.orders_eq (h : Numbers t u n) :
    u.segments.map Segment.order =
      t.segments.map Segment.order ++ (List.range n).map (t.segments.length + ·) := by
  rw [← map_snd_labels, ← map_snd_labels, h.labels_eq, List.map_append]
  exact congrArg _ List.map_map

/-- There is room for `n` more numbers. -/
def Room (t : Transcript) (n : Nat) : Prop :=
  t.lastId.toNat + n < UInt64.size

instance (t : Transcript) (n : Nat) : Decidable (t.Room n) :=
  inferInstanceAs (Decidable (_ < _))

/-- While there is room, numbers are counted on without a wrap. -/
theorem toNat_lastId_add (h : t.Room n) {k : Nat} (hk : k ≤ n) :
    (t.lastId + UInt64.ofNat k).toNat = t.lastId.toNat + k := by
  unfold Room at h
  rw [UInt64.toNat_add, UInt64.toNat_ofNat', Nat.add_mod_mod]
  exact Nat.mod_eq_of_lt (by simp only [UInt64.size] at h; omega)

/-- The greatest number does not shrink. -/
theorem Numbers.lastId_le (h : Numbers t u n) (hroom : t.Room n) : t.lastId ≤ u.lastId := by
  rw [UInt64.le_iff_toNat_le, h.lastId_eq, toNat_lastId_add hroom (Nat.le_refl n)]
  exact Nat.le_add_right _ n

/-- New numbers are greater than the greatest one. -/
theorem lt_of_mem_nextIds (hroom : t.Room n) {id : SegmentId} (h : id ∈ t.nextIds n) :
    t.lastId < id.number := by
  obtain ⟨k, hk, rfl⟩ := List.mem_map.1 h
  rw [UInt64.lt_iff_toNat_lt, toNat_lastId_add hroom (List.mem_range.1 hk)]
  omega

/-- New numbers grow. -/
theorem pairwise_nextIds (hroom : t.Room n) :
    (t.nextIds n).Pairwise fun a b => a.number < b.number := by
  refine List.pairwise_map.2 ?_
  refine List.pairwise_lt_range.imp_of_mem fun {j k} hj hk hlt => ?_
  rw [UInt64.lt_iff_toNat_lt, toNat_lastId_add hroom (List.mem_range.1 hj),
    toNat_lastId_add hroom (List.mem_range.1 hk)]
  omega

/-- No number is that of two segments nor greater than the greatest one, and each segment is at its
place. -/
structure Numbered (t : Transcript) : Prop where
  nodup : t.ids.Nodup
  orders_eq : t.segments.map Segment.order = List.range t.segments.length
  le_lastId : ∀ id ∈ t.ids, id.number ≤ t.lastId

/-- In an empty transcript nothing is out of order. -/
theorem numbered_empty : empty.Numbered where
  nodup := List.nodup_nil
  orders_eq := rfl
  le_lastId := nofun

/-- Numbers stay apart when segments are numbered on. -/
theorem Numbers.numbered (h : Numbers t u n) (hroom : t.Room n) (ht : t.Numbered) :
    u.Numbered where
  nodup := by
    rw [h.ids_eq]
    refine List.nodup_append.2 ⟨ht.nodup, ?_, fun a ha b hb => ?_⟩
    · refine (pairwise_nextIds hroom).imp fun {a b} hlt hab => ?_
      rw [hab] at hlt
      exact UInt64.lt_irrefl _ hlt
    · have hle := ht.le_lastId a ha
      have hlt := lt_of_mem_nextIds hroom hb
      rintro rfl
      exact UInt64.lt_irrefl _ (UInt64.lt_of_lt_of_le hlt hle)
  orders_eq := by
    rw [h.orders_eq, ht.orders_eq, h.length_eq, List.range_add]
  le_lastId id hid := by
    rw [h.ids_eq] at hid
    rcases List.mem_append.1 hid with hid | hid
    · exact UInt64.le_trans (ht.le_lastId id hid) (h.lastId_le hroom)
    · obtain ⟨k, hk, rfl⟩ := List.mem_map.1 hid
      have hk := List.mem_range.1 hk
      rw [UInt64.le_iff_toNat_le, h.lastId_eq, toNat_lastId_add hroom hk,
        toNat_lastId_add hroom (Nat.le_refl n)]
      omega

/-- Each of two numbers is at most the greater one. -/
theorem le_max_number (m n : UInt64) : m ≤ max m n ∧ n ≤ max m n := by
  show m ≤ (if m ≤ n then n else m) ∧ n ≤ if m ≤ n then n else m
  split
  next h => exact ⟨h, UInt64.le_refl n⟩
  next h => exact ⟨UInt64.le_refl m, (UInt64.le_total m n).resolve_left h⟩

/-- A caller's number that no segment has may be that of a new one. -/
theorem Numbered.push (ht : t.Numbered) {id : SegmentId} (hid : id ∉ t.ids)
    (hlabels : u.labels = t.labels ++ [(id, t.segments.length)])
    (hlastId : u.lastId = max t.lastId id.number) : u.Numbered where
  nodup := by
    have hids : u.ids = t.ids.concat id := by
      rw [← map_fst_labels, hlabels, List.map_append, map_fst_labels, List.concat_eq_append]
      rfl
    rw [hids]
    exact ht.nodup.concat hid
  orders_eq := by
    have hlength : u.segments.length = t.segments.length + 1 := by
      rw [← length_labels, hlabels, List.length_append, length_labels]
      rfl
    rw [← map_snd_labels, hlabels, List.map_append, map_snd_labels, ht.orders_eq, hlength,
      List.range_succ]
    rfl
  le_lastId other hother := by
    rw [← map_fst_labels, hlabels, List.map_append, map_fst_labels] at hother
    obtain ⟨hleft, hright⟩ := le_max_number t.lastId id.number
    rw [hlastId]
    rcases List.mem_append.1 hother with hold | hnew
    · exact UInt64.le_trans (ht.le_lastId other hold) hleft
    · rw [List.mem_singleton.1 hnew]
      exact hright

/-- Numbers stay apart when the last segment is dropped. -/
theorem Numbered.dropLast (ht : t.Numbered) (hlabels : u.labels = t.labels.dropLast)
    (hlastId : u.lastId = t.lastId) : u.Numbered where
  nodup := by
    rw [← map_fst_labels, hlabels, List.map_dropLast, map_fst_labels]
    exact ht.nodup.sublist (List.dropLast_sublist _)
  orders_eq := by
    have hlength : u.segments.length = t.segments.length - 1 := by
      rw [← length_labels, hlabels, List.length_dropLast, length_labels]
    rw [← map_snd_labels, hlabels, List.map_dropLast, map_snd_labels, ht.orders_eq, hlength,
      List.dropLast_eq_take, List.take_range, List.length_range, Nat.min_eq_left (Nat.sub_le _ 1)]
  le_lastId id hid := by
    rw [← map_fst_labels, hlabels, List.map_dropLast, map_fst_labels] at hid
    rw [hlastId]
    exact ht.le_lastId id (List.dropLast_subset _ hid)

/-- Numbers stay apart at an edit, and the greatest one does not shrink. -/
theorem Numbered.edit (ht : t.Numbered) (e : Edit) (hroom : t.Room (t.allocations e)) :
    (t.edit e).Numbered ∧ t.lastId ≤ (t.edit e).lastId := by
  rcases edit_cases t e with hnumbers | ⟨id, hid, hlabels, hlastId⟩ | ⟨hlabels, hlastId⟩
  · exact ⟨hnumbers.numbered hroom ht, hnumbers.lastId_le hroom⟩
  · refine ⟨ht.push hid hlabels hlastId, ?_⟩
    rw [hlastId]
    exact (le_max_number t.lastId id.number).1
  · refine ⟨ht.dropLast hlabels hlastId, ?_⟩
    rw [hlastId]
    exact UInt64.le_refl _

/-- A segment keeps its label as long as there is a segment at its place. -/
theorem getElem?_labels_edit (t : Transcript) (e : Edit) {i : Nat} (ht : i < t.segments.length)
    (hu : i < (t.edit e).segments.length) : (t.edit e).labels[i]? = t.labels[i]? := by
  rw [← length_labels] at ht hu
  rcases edit_cases t e with hnumbers | ⟨id, -, hlabels, -⟩ | ⟨hlabels, -⟩
  · rw [hnumbers.labels_eq, List.getElem?_append_left ht]
  · rw [hlabels, List.getElem?_append_left ht]
  · rw [hlabels, List.length_dropLast] at hu
    rw [hlabels, List.getElem?_dropLast, if_pos hu]

/-! ### Runs of edits -/

/-- The numbers do not run out at any of a number of edits, one after another. -/
def HasRoom : Transcript → List Edit → Prop
  | _, [] => True
  | t, e :: es => t.Room (t.allocations e) ∧ (t.edit e).HasRoom es

instance decidableHasRoom : (t : Transcript) → (es : List Edit) → Decidable (t.HasRoom es)
  | _, [] => .isTrue trivial
  | t, e :: es =>
    have := decidableHasRoom (t.edit e) es
    inferInstanceAs (Decidable (_ ∧ _))

/-- The numbers suffice for edits and further ones if they do for the one and then for the other. -/
theorem hasRoom_append (es fs : List Edit) :
    t.HasRoom (es ++ fs) ↔ t.HasRoom es ∧ (es.foldl edit t).HasRoom fs := by
  induction es generalizing t with
  | nil => exact (iff_of_eq (true_and _)).symm
  | cons e es ih => exact (and_congr_right fun _ => ih).trans and_assoc.symm

/-- Numbers stay apart at any edits for which they suffice, and the greatest one does not shrink. -/
theorem Numbered.foldl {es : List Edit} (ht : t.Numbered) (h : t.HasRoom es) :
    (es.foldl Transcript.edit t).Numbered ∧ t.lastId ≤ (es.foldl Transcript.edit t).lastId := by
  induction es generalizing t with
  | nil => exact ⟨ht, UInt64.le_refl _⟩
  | cons e es ih =>
    obtain ⟨hedit, hle⟩ := ht.edit e h.1
    obtain ⟨hrun, hrest⟩ := ih hedit h.2
    exact ⟨hrun, UInt64.le_trans hle hrest⟩

/-- The transcript after edits of an empty one. -/
def after (edits : List Edit) : Transcript := edits.foldl edit empty

/-- Whatever is done to an empty transcript, it stays sound. -/
theorem sound_after (edits : List Edit) : (after edits).Sound :=
  sound_empty.foldl edits

theorem after_concat (edits : List Edit) (e : Edit) :
    after (edits ++ [e]) = (after edits).edit e :=
  List.foldl_concat ..

/-- No number of an earlier transcript is greater than the greatest one. -/
theorem le_lastId_after {earlier edits : List Edit} (hpre : earlier <+: edits)
    (h : empty.HasRoom edits) {id : SegmentId} (hid : id ∈ (after earlier).ids) :
    id.number ≤ (after edits).lastId := by
  obtain ⟨rest, rfl⟩ := hpre
  obtain ⟨hearlier, hrest⟩ := (hasRoom_append earlier rest).1 h
  have hnumbered := (numbered_empty.foldl hearlier).1
  have hle := (hnumbered.foldl hrest).2
  unfold after
  rw [List.foldl_append]
  exact UInt64.le_trans (hnumbered.le_lastId id hid) hle

/-- The segment at a place has had its id since it was made: since then there has always been a
segment at the place, and all that time its id was this one. -/
def Carried (edits : List Edit) (i : Nat) (id : SegmentId) : Prop :=
  ∃ before e rest, edits = before ++ e :: rest ∧ (after before).segments.length ≤ i ∧
    ∀ p, p <+: rest → (after (before ++ e :: p)).ids[i]? = some id

/-- A segment that is there has had its id since it was made. -/
theorem carried_of_getElem? {edits : List Edit} {i : Nat} {id : SegmentId}
    (h : (after edits).ids[i]? = some id) : Carried edits i id := by
  induction edits using List.reverseRecOn with
  | nil => exact nomatch h
  | append_singleton edits e ih =>
    by_cases hi : i < (after edits).segments.length
    · have hedit : i < ((after edits).edit e).segments.length := by
        rw [after_concat] at h
        have := (List.getElem?_eq_some_iff.1 h).1
        rwa [ids, List.length_map] at this
      have hsame := getElem?_labels_edit (after edits) e hi hedit
      have hbefore : (after edits).ids[i]? = some id := by
        rw [getElem?_ids, ← hsame, ← getElem?_ids, ← after_concat, h]
      obtain ⟨before, first, rest, rfl, hmade, hkept⟩ := ih hbefore
      refine ⟨before, first, rest ++ [e], by simp, hmade, fun p hp => ?_⟩
      rcases List.prefix_concat_iff.1 hp with rfl | hp
      · rw [← h]
        simp
      · exact hkept p hp
    · refine ⟨edits, e, [], rfl, Nat.le_of_not_lt hi, fun p hp => ?_⟩
      rw [List.prefix_nil.1 hp, h]

/-- Text at the end of a segment is put behind the text of that segment alone. -/
theorem segments_appendAt (t : Transcript) (i : Nat) (s : List Char) :
    (t.appendAt i s).segments = t.segments.modify i fun g => { g with text := g.text ++ s } := by
  have hselect : (t.select i).segments = t.segments := by
    unfold select
    split <;> rfl
  show (t.select i).segments.modify i _ = _
  rw [hselect]

/-- Text for a segment that is there is put behind its text. -/
theorem segments_appendTo {id : SegmentId} {i : Nat} (h : t.indexOf? id = some i) (s : List Char) :
    (t.edit (.appendTo id s)).segments =
      t.segments.modify i fun g => { g with text := g.text ++ s } := by
  show (t.appendTo id s).segments = _
  unfold appendTo
  split
  next hs =>
    rw [List.isEmpty_iff.1 hs]
    simp only [List.append_nil]
    exact (List.modify_id i t.segments).symm
  next => rw [h, segments_appendAt]

/-- A segment that is there gets a type and properties. -/
theorem segments_retype {id : SegmentId} {i : Nat} (h : t.indexOf? id = some i)
    (kind : ContentType) (props : Object) :
    (t.edit (.retype kind props id)).segments =
      t.segments.modify i fun g => { g with kind, props := Table.setAll g.props props } := by
  show ((t.retype? kind props id).getD t).segments = _
  unfold retype?
  rw [h]
  rfl

/-- An id that a segment has is found at its place. -/
theorem exists_indexOf? {id : SegmentId} (h : id ∈ t.ids) :
    ∃ i, t.indexOf? id = some i ∧ t.ids[i]? = some id := by
  obtain ⟨g, hg, hid⟩ := List.mem_map.1 h
  have hany : (t.indexOf? id).isSome = true := by
    unfold indexOf?
    rw [List.findIdx?_isSome, List.any_eq_true]
    exact ⟨g, hg, decide_eq_true hid⟩
  obtain ⟨i, hi⟩ := Option.isSome_iff_exists.1 hany
  obtain ⟨hlt, hhas, -⟩ := List.findIdx?_eq_some_iff_getElem.1 hi
  refine ⟨i, hi, ?_⟩
  rw [ids, List.getElem?_map, List.getElem?_eq_getElem hlt]
  exact congrArg some (of_decide_eq_true hhas)

/-- Whether an edit makes its segments with numbers given in order. -/
def Edit.givesNumbers : Edit → Bool
  | .append _ => true
  | .beginText _ => true
  | .scan => true
  | _ => false

/-- New segments of such an edit have the numbers that follow. -/
theorem numbers_edit {e : Edit} (he : e.givesNumbers = true) (t : Transcript) :
    Numbers t (t.edit e) (t.allocations e) := by
  cases e with
  | append s => exact numbers_append t s
  | beginText s => exact numbers_beginText t s
  | scan => exact numbers_scan t
  | appendTo id s => exact nomatch he
  | retype kind props id => exact nomatch he
  | dropEmptyLast => exact nomatch he
  | resetScan => exact nomatch he

/-- Whatever is done to an empty transcript, as long as the numbers do not run out, no two of its
segments have the same id, and each is at the place at which it was made. An edit that gives numbers
gives greater ones than any segment has ever had, dropped ones and those that callers have numbered
included. And an id that is there names the segment that has had it since it was made: text and
types for the id are given to that segment, and to no other. -/
theorem ids_after {edits : List Edit} (h : empty.HasRoom edits) :
    (after edits).ids.Nodup ∧
      (after edits).segments.map Segment.order = List.range (after edits).segments.length ∧
      (∀ e : Edit, e.givesNumbers → (after edits).Room ((after edits).allocations e) →
        ∃ new, ((after edits).edit e).ids = (after edits).ids ++ new ∧
          new.length = (after edits).allocations e ∧
          new.Pairwise (fun a b => a.number < b.number) ∧
          ∀ earlier, earlier <+: edits → ∀ old ∈ (after earlier).ids, ∀ id ∈ new,
            old.number < id.number) ∧
      ∀ id ∈ (after edits).ids, ∃ i, Carried edits i id ∧
        (∀ s, ((after edits).edit (.appendTo id s)).segments =
          (after edits).segments.modify i fun g => { g with text := g.text ++ s }) ∧
        ∀ kind props, ((after edits).edit (.retype kind props id)).segments =
          (after edits).segments.modify i fun g =>
            { g with kind, props := Table.setAll g.props props } := by
  have hnumbered : (after edits).Numbered := (numbered_empty.foldl h).1
  refine ⟨hnumbered.nodup, hnumbered.orders_eq, fun e he hroom => ?_, fun id hid => ?_⟩
  · have hnew := numbers_edit he (after edits)
    refine ⟨_, hnew.ids_eq, by simp [nextIds], pairwise_nextIds hroom, ?_⟩
    intro earlier hearlier old hold id hid
    have hle := le_lastId_after hearlier h hold
    exact UInt64.lt_of_le_of_lt hle (lt_of_mem_nextIds hroom hid)
  · obtain ⟨i, hindex, hat⟩ := exists_indexOf? hid
    exact ⟨i, carried_of_getElem? hat, segments_appendTo hindex, segments_retype hindex⟩

/-- Edits that number segments on, at marked blocks and otherwise, drop a segment, and make one with
a caller's number. -/
def sevenNumbers : List Edit := [
  .append "a<think>b</think>".toList, .scan, .dropEmptyLast, .beginText [], .dropEmptyLast,
  .appendTo ⟨7⟩ "c".toList, .beginText "d".toList]

/-- The numbers of dropped segments are not given again, and those after a caller's number follow
it. -/
theorem ids_after_sevenNumbers :
    (after sevenNumbers).ids = [⟨1⟩, ⟨2⟩, ⟨7⟩, ⟨8⟩] ∧
      (∃ new : List SegmentId, ((after sevenNumbers).edit .scan).ids =
        (after sevenNumbers).ids ++ new ∧ ∀ id ∈ new, 8 < id.number) ∧
      ∃ i, Carried sevenNumbers i ⟨7⟩ := by
  have hids : (after sevenNumbers).ids = [⟨1⟩, ⟨2⟩, ⟨7⟩, ⟨8⟩] := by decide +kernel
  have hroom : empty.HasRoom sevenNumbers := by decide +kernel
  have hmore : (after sevenNumbers).Room ((after sevenNumbers).allocations .scan) := by
    decide +kernel
  obtain ⟨-, -, hnew, hnamed⟩ := ids_after hroom
  obtain ⟨new, hscan, -, -, hgreater⟩ := hnew .scan rfl hmore
  obtain ⟨i, hcarried, -⟩ := hnamed ⟨7⟩ (by rw [hids]; decide)
  refine ⟨hids, ⟨new, hscan, fun id hid => ?_⟩, i, hcarried⟩
  exact hgreater sevenNumbers List.prefix_rfl ⟨8⟩ (by rw [hids]; decide) id hid

end Transcript

end ChatRelay
