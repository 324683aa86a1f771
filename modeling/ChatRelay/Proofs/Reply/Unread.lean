import ChatRelay.Proofs.Reply.Blocks
import ChatRelay.Proofs.Reply.Reading
import Mathlib.Data.List.DropRight

/-!
# What frames leave unread

A frame that cannot be read says nothing: it only adds its text to what is pending
(`Reply.takeFrame_of_unread`). Each later frame is first read together with what is pending, and
only if that succeeds is anything pending given up; a frame that can be read on its own leaves it
there. `Reply.readings` lists what frames are read as, and `Reply.unread` is the text of those that
could not be read since pending text could last be joined with a frame. That is what is pending,
after any frames (`Reply.pending_run`).
-/

namespace ChatRelay

namespace Reply

/-- What a frame is read as. -/
structure Reading where
  /-- The frame can be read together with what was pending. -/
  joined : Bool
  delta? : Option Delta

/-- The text that a frame leaves unread. -/
def Reading.unread (x : Reading) : List Char :=
  match x.delta? with
  | some d => if d.pending then d.text else []
  | none => []

/-- Whether a frame can be read together with what is pending, if anything is. -/
def joins (r : Reply) (raw : List UInt8) : Bool :=
  !r.pending.isEmpty && (Delta.ofFrame? (Text.utf8 r.pending ++ raw)).any (!·.pending)

/-- What a frame is read as by a reply. -/
def reading (r : Reply) (raw : List UInt8) : Reading :=
  ⟨r.joins raw, (r.read raw).2⟩

/-- What frames are read as, one after another. -/
def readings (r : Reply) : List (List UInt8) → List Reading
  | [] => []
  | raw :: rest => r.reading raw :: (r.takeFrame raw).reply.readings rest

/-- The text that frames leave unread, since what was pending could last be joined with a frame. -/
def unread (r : Reply) (raws : List (List UInt8)) : List Char :=
  ((r.readings raws).rtakeWhile (!·.joined)).flatMap Reading.unread

variable {r : Reply}

/-- If what is pending can be joined with a frame, the frame is read so, and nothing is pending. -/
theorem read_of_joins {raw : List UInt8} (h : r.joins raw = true) :
    ∃ d, d.pending = false ∧ Delta.ofFrame? (Text.utf8 r.pending ++ raw) = some d ∧
      r.read raw = ([], some d) := by
  unfold joins at h
  rw [Bool.and_eq_true, Bool.not_eq_true', Option.any_eq_true] at h
  obtain ⟨hpending, d, hd, hread⟩ := h
  have hnot : d.pending = false := by simpa using hread
  have hfilter : (some d).filter (fun d => !d.pending) = some d := by
    simp [Option.filter, hnot]
  refine ⟨d, hnot, hd, ?_⟩
  unfold read
  rw [hpending, if_neg Bool.false_ne_true, hd, hfilter]

/-- Otherwise the frame is read on its own. -/
theorem read_of_not_joins {raw : List UInt8} (h : r.joins raw = false) :
    r.read raw = (r.pending, Delta.ofFrame? raw) := by
  unfold joins at h
  unfold read
  cases hpending : r.pending.isEmpty with
  | true => rfl
  | false =>
    rw [hpending] at h
    cases hd : Delta.ofFrame? (Text.utf8 r.pending ++ raw) with
    | none => rfl
    | some d =>
      rw [hd] at h
      have hunread : d.pending = true := by simpa using h
      have hfilter : (some d).filter (fun d => !d.pending) = none := by
        simp [Option.filter, hunread]
      rw [if_neg Bool.false_ne_true, hfilter]

/-- A frame that is read as text that could not be understood sends nothing, and changes nothing but
what is pending. -/
theorem takeFrame_of_unread {raw : List UInt8} {d : Delta} (h : (r.read raw).2 = some d)
    (hunread : d.pending = true) :
    r.takeFrame raw = ⟨{ r with pending := r.pending ++ d.text }, [], .more⟩ := by
  have hjoins : r.joins raw = false := by
    refine Bool.eq_false_iff.2 fun hjoins => ?_
    obtain ⟨d', hd', -, hread⟩ := read_of_joins hjoins
    rw [hread] at h
    cases h
    exact absurd (hd'.symm.trans hunread) Bool.false_ne_true
  rw [takeFrame_eq, h, read_of_not_joins hjoins]
  exact if_pos hunread

/-- What is pending after a frame. -/
theorem pending_takeFrame (r : Reply) (raw : List UInt8) :
    (r.takeFrame raw).reply.pending =
      if r.joins raw then [] else r.pending ++ (r.reading raw).unread := by
  rw [takeFrame_eq]
  unfold reading Reading.unread
  cases hjoins : r.joins raw with
  | true =>
    obtain ⟨d, hd, -, hread⟩ := read_of_joins hjoins
    rw [hread, if_pos rfl]
    dsimp only
    rw [pending_take, hd]
    rfl
  | false =>
    rw [read_of_not_joins hjoins, if_neg Bool.false_ne_true]
    cases Delta.ofFrame? raw with
    | none => exact (List.append_nil _).symm
    | some d =>
      dsimp only
      rw [pending_take]
      split
      · rfl
      · exact (List.append_nil _).symm

/-- The last of some frames is read by the reply after the others. -/
theorem readings_append_singleton (r : Reply) (raws : List (List UInt8)) (raw : List UInt8) :
    r.readings (raws ++ [raw]) =
      r.readings raws ++ [(r.run (raws.map .frame)).1.reading raw] := by
  induction raws generalizing r with
  | nil => rfl
  | cons first rest ih => exact congrArg (r.reading first :: ·) (ih _)

/-- What is pending after some frames is what they leave unread. The induction is on the last frame,
since only that decides whether anything before it still counts. -/
theorem pending_run (h : r.pending = []) (raws : List (List UInt8)) :
    (r.run (raws.map .frame)).1.pending = r.unread raws := by
  induction raws using List.reverseRecOn with
  | nil => exact h
  | append_singleton raws raw ih =>
    have hlast : (r.run ((raws ++ [raw]).map .frame)).1 =
        ((r.run (raws.map .frame)).1.takeFrame raw).reply := by
      rw [List.map_append]
      exact run_append_singleton _ _ _
    rw [hlast, pending_takeFrame, ih]
    unfold unread
    rw [readings_append_singleton, List.rtakeWhile_concat]
    have hjoined : ((r.run (raws.map .frame)).1.reading raw).joined =
        (r.run (raws.map .frame)).1.joins raw := rfl
    rw [hjoined]
    cases (r.run (raws.map .frame)).1.joins raw with
    | true => rfl
    | false => simp

end Reply

end ChatRelay
