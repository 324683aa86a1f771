import ChatRelay.Proofs.Provider.Cutting
import ChatRelay.Proofs.Reply.Unread

/-!
# What is pending and the frames after it

What is pending never changes what a frame says that can be read on its own: the reply takes the
delta of that frame, and all that may happen besides is that what is pending is given up
(`Reply.takeFrame_of_readable`).

A frame that comes in two parts does the same as the whole frame if it is cut cleanly and carries
anything (`Reply.takeParts_eq_takeFrame_iff`). A blank of a string at the cut is lost
(`Reply.takeParts_loses_blank`), and so are the bytes of a character that is cut; and the parts of a
frame that carries nothing stay pending.
-/

namespace ChatRelay

namespace Reply

/-- The same reply with other text that could not be read yet. -/
def leaving (r : Reply) (pending : List Char) : Reply := { r with pending }

/-- The same advance, which leaves other text unread. -/
def Advance.leaving (a : Advance) (pending : List Char) : Advance :=
  { a with reply := a.reply.leaving pending }

variable (r : Reply) (q : List Char)

/-! ### What is pending plays no part in deltas -/

/-- What is left unread does not matter to the frame that tells who answers. -/
theorem announce_leaving (f : Frame) :
    (r.leaving q).announce f = ((r.announce f).1.leaving q, (r.announce f).2) := by
  obtain ⟨who, t, thinking, calling, announced, pending, asides⟩ := r
  cases announced <;> rfl

/-- What is left unread does not matter to the end of a block. -/
theorem endBlock_leaving (m : Marker) (mark : List Char) :
    (r.leaving q).endBlock m mark = ((r.endBlock m mark).1.leaving q, (r.endBlock m mark).2) := by
  unfold endBlock
  rw [announce_leaving]
  rfl

/-- What is left unread does not matter to a text that is said. -/
theorem say_leaving (c : Channel) (text : List Char) :
    (r.leaving q).say c text = ((r.say c text).1.leaving q, (r.say c text).2) := by
  by_cases htext : text = []
  · subst htext
    rfl
  · have hnoted : (r.leaving q).noted text = (r.noted text).leaving q := rfl
    rw [say_of_ne_nil _ c htext, say_of_ne_nil _ c htext, hnoted, announce_leaving]
    rfl

/-- What is left unread does not matter to the marks of thinking. -/
theorem markThinking_leaving (c : Channel) (text : List Char) :
    (r.leaving q).markThinking c text =
      ((r.markThinking c text).1.leaving q, (r.markThinking c text).2) := by
  have hend := endBlock_leaving r q .think thinkClose
  have hthinking : (r.leaving q).thinking = r.thinking := rfl
  unfold markThinking
  rw [hthinking, hend]
  split
  · cases r.thinking <;> rfl
  · cases r.thinking <;> rfl

/-- What is left unread does not matter to the marks of a tool call. -/
theorem markCalling_leaving (c : Channel) (text : List Char) (done : Bool) :
    (r.leaving q).markCalling c text done =
      ((r.markCalling c text done).1.leaving q, (r.markCalling c text done).2) := by
  have hend := endBlock_leaving r q .tool toolClose
  have hcalling : (r.leaving q).calling = r.calling := rfl
  unfold markCalling
  rw [hcalling, hend]
  split
  · cases r.calling <;> rfl
  · cases r.calling with
    | false => rfl
    | true => cases done <;> rfl

/-- What is left unread does not matter to anything that is said next. -/
theorem advance_leaving (c : Channel) (text : List Char) (done : Bool) :
    (r.leaving q).advance c text done = (r.advance c text done).leaving q := by
  unfold advance
  rw [markThinking_leaving]
  dsimp only
  rw [markCalling_leaving]
  dsimp only
  rw [say_leaving]
  cases done <;> rfl

/-- A delta that can be understood does the same to a reply, whatever is pending. -/
theorem take_leaving {d : Delta} (hd : d.pending = false) :
    (r.leaving q).take d = (r.take d).leaving q := by
  unfold take
  rw [hd, if_neg Bool.false_ne_true, if_neg Bool.false_ne_true]
  split
  · rfl
  split
  · rw [advance_leaving, Advance.leaving]
    dsimp only
    rw [advance_leaving]
    rfl
  · exact advance_leaving r q d.channel d.text d.done

/-! ### Frames that can be read on their own -/

/-- What is pending does not change as what a frame is read that can be read on its own. -/
theorem read_of_readable (r : Reply) {raw : List UInt8} {d : Delta}
    (h : Delta.ofFrame? raw = some d) (hd : d.pending = false) : (r.read raw).2 = some d := by
  cases hjoins : r.joins raw with
  | true =>
    obtain ⟨d', hd', hjoined, hread⟩ := read_of_joins hjoins
    rw [hread, Delta.eq_of_joined h hd hjoined hd']
  | false => rw [read_of_not_joins hjoins, h]

/-- A frame that can be read on its own is read so by any reply, and what is pending is left as it
is or given up. -/
theorem takeFrame_of_readable (r : Reply) {raw : List UInt8} {d : Delta}
    (h : Delta.ofFrame? raw = some d) (hd : d.pending = false) :
    r.takeFrame raw = (r.take d).leaving (if r.joins raw then [] else r.pending) ∧
      ∀ (p : List Char) (d' : Delta), Delta.ofFrame? (Text.utf8 p ++ raw) = some d' →
        d'.pending = false → d' = d := by
  refine ⟨?_, fun p d' h' hd' => Delta.eq_of_joined h hd h' hd'⟩
  rw [takeFrame_eq]
  cases hjoins : r.joins raw with
  | true =>
    obtain ⟨d', hd', hjoined, hread⟩ := read_of_joins hjoins
    rw [hread, Delta.eq_of_joined h hd hjoined hd']
    exact take_leaving r [] hd
  | false =>
    rw [read_of_not_joins hjoins, h]
    exact take_leaving r r.pending hd

/-- The first part of a frame, cut inside of a string. -/
def cutInString : List UInt8 := Text.utf8 "\x7b\"text\":\"a".toList

/-- A frame that carries a text. -/
def wholeText : List UInt8 := Text.utf8 "data: \x7b\"text\":\"b\"\x7d".toList

/-- The string that is pending is not ended by the quotation marks of the frame after it. -/
theorem takeFrame_of_readable_cutInString :
    let r := (start ⟨"a", "Alpha", none⟩ .empty).leaving (Text.decode cutInString)
    (Delta.ofFrame? wholeText = some (.on .other ['b']) ∧ (Delta.on .other ['b']).pending = false) ∧
      r.takeFrame wholeText =
          (r.take (.on .other ['b'])).leaving (if r.joins wholeText then [] else r.pending) ∧
        ∀ (p : List Char) (d' : Delta), Delta.ofFrame? (Text.utf8 p ++ wholeText) = some d' →
          d'.pending = false → d' = .on .other ['b'] := by
  have hread : Delta.ofFrame? wholeText = some (.on .other ['b']) := by decide +kernel
  exact ⟨⟨hread, rfl⟩, takeFrame_of_readable _ hread rfl⟩

/-! ### Frames that are cut in two -/

/-- What the two parts of a frame make of a reply, one after the other. -/
def takeParts (r : Reply) (a b : List UInt8) : Advance :=
  let first := r.takeFrame a
  let last := first.reply.takeFrame b
  ⟨last.reply, first.frames ++ last.frames, last.step⟩

variable {r} {a b : List UInt8} {d : Delta}

/-- A part that cannot be read is kept, and then counts with the part after it. -/
theorem takeParts_of_unread (hr : r.pending = []) (ha : Delta.ofFrame? a = some d)
    (hd : d.pending = true) : r.takeParts a b = (r.leaving d.text).takeFrame b := by
  have hread : (r.read a).2 = some d := by
    have hjoins : r.joins a = false := by
      rw [joins, hr]
      rfl
    rw [read_of_not_joins hjoins]
    exact ha
  have hkept : { r with pending := r.pending ++ d.text } = r.leaving d.text := by
    rw [hr]
    rfl
  unfold takeParts
  rw [takeFrame_of_unread hread hd, hkept]
  rfl

/-- A reply with text pending takes the delta that this text and a frame are read as. -/
theorem takeFrame_of_joins {q : List Char} (hr : r.pending = []) {e : Delta} (hq : q ≠ [])
    (he : Delta.ofFrame? (Text.utf8 q ++ b) = some e) (hunderstood : e.pending = false) :
    (r.leaving q).takeFrame b = r.take e := by
  have hjoins : (r.leaving q).joins b = true := by
    have hpending : (r.leaving q).pending = q := rfl
    rw [joins, hpending, he]
    simp [hq, hunderstood]
  obtain ⟨e', -, he', hread⟩ := read_of_joins hjoins
  cases he.symm.trans he'
  have hsame : r.leaving [] = r := by
    rw [← hr]
    rfl
  rw [takeFrame_eq, hread]
  exact congrArg (fun s : Reply => s.take e) hsame

/-- A frame that can be understood leaves nothing pending if nothing was. -/
theorem pending_takeFrame_of_understood {raw : List UInt8} (hr : r.pending = [])
    (h : ∀ e, Delta.ofFrame? raw = some e → e.pending = false) :
    (r.takeFrame raw).reply.pending = [] := by
  rw [takeFrame_of_pending_nil hr]
  cases hraw : Delta.ofFrame? raw with
  | none => exact hr
  | some e => exact (pending_take r e).trans (by rw [h e hraw, hr]; rfl)

/-- A frame that is given in two parts, of which the first cannot be read, does the same as the
whole frame just if the text that is kept and the second part are read as a delta that does so. If
the frame is cut cleanly, this is so just if it carries anything. -/
theorem takeParts_eq_takeFrame_iff (hr : r.pending = []) (ha : Delta.ofFrame? a = some d)
    (hd : d.pending = true)
    (hwhole : ∀ e, Delta.ofFrame? (a ++ b) = some e → e.pending = false) :
    (r.takeParts a b = r.takeFrame (a ++ b) ↔
        ∃ e, Delta.ofFrame? (Text.utf8 d.text ++ b) = some e ∧ e.pending = false ∧
          r.take e = r.takeFrame (a ++ b)) ∧
      (Delta.CleanCut a b →
        (r.takeParts a b = r.takeFrame (a ++ b) ↔ (Delta.ofFrame? (a ++ b)).isSome)) := by
  have hkept : d.text ≠ [] := Delta.text_ne_nil_of_pending ha hd
  have hwholeFrame := takeFrame_of_pending_nil hr (a ++ b)
  have hiff : r.takeParts a b = r.takeFrame (a ++ b) ↔
      ∃ e, Delta.ofFrame? (Text.utf8 d.text ++ b) = some e ∧ e.pending = false ∧
        r.take e = r.takeFrame (a ++ b) := by
    rw [takeParts_of_unread hr ha hd]
    refine ⟨fun h => ?_, fun ⟨e, he, hunderstood, h⟩ => ?_⟩
    · cases hjoins : (r.leaving d.text).joins b with
      | true =>
        obtain ⟨e, hunderstood, he, -⟩ := read_of_joins hjoins
        exact ⟨e, he, hunderstood, (takeFrame_of_joins hr hkept he hunderstood).symm.trans h⟩
      | false =>
        -- What was kept is still pending, while the whole frame leaves nothing pending.
        have hleft := pending_takeFrame (r.leaving d.text) b
        rw [hjoins, if_neg Bool.false_ne_true, h,
          pending_takeFrame_of_understood hr hwhole] at hleft
        exact absurd (List.append_eq_nil_iff.1 hleft.symm).1 hkept
    · rw [takeFrame_of_joins hr hkept he hunderstood, h]
  refine ⟨hiff, fun hcut => hiff.trans ?_⟩
  rw [Delta.ofFrame?_of_cleanCut hcut ha hd hwhole]
  refine ⟨fun ⟨e, he, _⟩ => Option.isSome_iff_exists.2 ⟨e, he⟩, fun h => ?_⟩
  obtain ⟨e, he⟩ := Option.isSome_iff_exists.1 h
  refine ⟨e, he, hwhole e he, ?_⟩
  rw [hwholeFrame, he]
  rfl

/-- A frame that is cut inside of a string and before a blank is read whole. -/
theorem takeParts_eq_takeFrame_cutInString :
    let r := start ⟨"a", "Alpha", none⟩ .empty
    let rest := Text.utf8 " b\"\x7d".toList
    let kept := Delta.unread (Text.decode cutInString)
    (r.pending = [] ∧ Delta.ofFrame? cutInString = some kept ∧ kept.pending = true ∧
        (∀ e, Delta.ofFrame? (cutInString ++ rest) = some e → e.pending = false) ∧
        Delta.CleanCut cutInString rest ∧ (Delta.ofFrame? (cutInString ++ rest)).isSome) ∧
      r.takeParts cutInString rest = r.takeFrame (cutInString ++ rest) := by
  intro r rest kept
  have hkept : Delta.ofFrame? cutInString = some kept := by decide +kernel
  have hread : Delta.ofFrame? (cutInString ++ rest) = some (.on .other "a b".toList) := by
    decide +kernel
  have hwhole : ∀ e, Delta.ofFrame? (cutInString ++ rest) = some e → e.pending = false := by
    intro e he
    cases hread.symm.trans he
    rfl
  have hsome : (Delta.ofFrame? (cutInString ++ rest)).isSome :=
    Option.isSome_iff_exists.2 ⟨_, hread⟩
  have hlast : (Text.decode cutInString).getLast? = some 'a' := by decide +kernel
  have hcut : Delta.CleanCut cutInString rest := by
    refine ⟨by decide +kernel, fun _ c hc => ?_⟩
    rw [hlast] at hc
    cases hc
    rfl
  exact ⟨⟨rfl, hkept, rfl, hwhole, hcut, hsome⟩,
    ((takeParts_eq_takeFrame_iff rfl hkept rfl hwhole).2 hcut).2 hsome⟩

/-- A frame that is cut behind a blank of a string loses the blank. -/
theorem takeParts_loses_blank :
    let r := start ⟨"a", "Alpha", none⟩ .empty
    let first := Text.utf8 "\x7b\"text\":\"a ".toList
    let rest := Text.utf8 "b\"\x7d".toList
    (r.pending = [] ∧ (Delta.ofFrame? first).map Delta.pending = some true ∧
        Delta.ofFrame? (first ++ rest) = some (.on .other "a b".toList)) ∧
      Frame.contents (r.takeFrame (first ++ rest)).frames = "a b".toList ∧
      Frame.contents (r.takeParts first rest).frames = "ab".toList ∧
      r.takeParts first rest ≠ r.takeFrame (first ++ rest) := by
  intro r first rest
  have hwhole : Frame.contents (r.takeFrame (first ++ rest)).frames = "a b".toList := by
    decide +kernel
  have hparts : Frame.contents (r.takeParts first rest).frames = "ab".toList := by
    decide +kernel
  refine ⟨⟨rfl, by decide +kernel, by decide +kernel⟩, hwhole, hparts, fun h => ?_⟩
  rw [h, hwhole] at hparts
  exact absurd hparts (by decide)

end Reply

end ChatRelay
