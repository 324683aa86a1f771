import ChatRelay.Proofs.Reply.Stretches
import ChatRelay.Proofs.Transcript.Parts

/-!
# Sections of a reply

What the model reasons, what tools it calls and what it answers stand in segments of their own.
`Reply.layout` gives the parts of the transcript from the stretches of the reply: a marked block for
each stretch of reasoning and of tool calls, and the answer as plain text between them, to which the
newlines around the mark of a tool call belong. The transcript has these parts
(`Reply.segments_run_close`), provided that no stretch holds a marker of its own. It is proved
stretch by stretch: `Transcript.Awaits` says which parts are finished, and what plain text has been
written since.
-/

namespace ChatRelay

open Json (Value Object)

namespace Reply

/-! ### The parts of a reply -/

/-- The text between the marks of a block: a tool call gets the end of its object. -/
def content : Marker → List Char → List Char
  | .think, s => s
  | .tool, s => s ++ ['\x7d']

/-- A block with its markers around it. -/
def enclosed (m : Marker) (s : List Char) : List Char :=
  m.opening ++ ('\n' :: (content m s ++ ['\n'])) ++ m.closing

/-- The newline before the opening marker of a block, if its mark has one. -/
def lead : Marker → List Char
  | .think => []
  | .tool => ['\n']

/-- The newline after the closing marker of a block: what the block takes of it, and what it leaves
to the text after it. Only a tool call leaves it, and only if the reply goes on. -/
def trail (m : Marker) (rest : List Stretch) : List Char × List Char :=
  if m = .think ∨ rest = [] then (['\n'], []) else ([], ['\n'])

/-- The parts that stretches make, after some plain text. -/
def layout (plain : List Char) : List Stretch → List Part
  | [] => Part.plain plain
  | ⟨none, s⟩ :: rest => layout (plain ++ s) rest
  | ⟨some m, s⟩ :: rest =>
    Part.plain (plain ++ lead m) ++
      .block m (enclosed m s ++ (trail m rest).1) (Text.trim (content m s)) ::
        layout (trail m rest).2 rest

/-! ### The marks of a block -/

/-- The mark before a block is what leads to it, the opening marker, and a newline. -/
theorem openMark_eq (m : Marker) : openMark m = lead m ++ (m.opening ++ ['\n']) := by
  cases m <;> rfl

/-- A text and the mark after a block are the content of the block and its closing marker, in lines
of their own. -/
theorem append_closeMark (m : Marker) (s : List Char) :
    s ++ closeMark m = content m s ++ ('\n' :: (m.closing ++ ['\n'])) := by
  cases m with
  | think => rfl
  | tool => exact (List.append_assoc s ['\x7d'] _).symm

/-- What stands in a block from its opening to its closing mark. -/
theorem opening_append_closeMark (m : Marker) (s : List Char) :
    m.opening ++ '\n' :: s ++ closeMark m = enclosed m s ++ ['\n'] := by
  have h := append_closeMark m s
  simp only [enclosed, List.append_assoc, List.cons_append, List.nil_append] at h ⊢
  rw [h]

/-- The content of an enclosed text is found without blanks around it. -/
theorem strip_enclosed (m : Marker) (s : List Char) :
    m.strip (enclosed m s ++ ['\n']) = Text.trim (content m s) := by
  rw [enclosed, Marker.strip_block, Text.trim_cons (by decide), Text.trim_concat (by decide)]

/-- The marks around a block bring no marker about in the text before and after it. -/
theorem absent_append_lead {s : List Char} (h : Marker.Absent s) (m : Marker) :
    Marker.Absent (s ++ lead m) := by
  cases m with
  | think => exact (List.append_nil s).symm ▸ h
  | tool => exact h.concat Marker.newline_not_mem

/-- What trails a block brings no marker into a text without any. -/
theorem absent_trail_append (m : Marker) (rest : List Stretch) {s : List Char}
    (h : Marker.Absent s) : Marker.Absent ((trail m rest).2 ++ s) := by
  unfold trail
  split
  · exact h
  · exact h.cons Marker.newline_not_mem

end Reply

namespace Transcript

open Reply (openMark? openMark closeMark thinkClose toolClose content enclosed lead trail layout)

/-! ### Leaving a block -/

/-- The transcript after the block that is open has been left for other text. -/
def leave (t : Transcript) : Option Marker → Transcript
  | none => t
  | some .think => t.endBlock .think thinkClose
  | some .tool => t.write toolClose

/-- Text outside of the open block leaves that block first. -/
theorem Sound.pass_eq_leave {t : Transcript} (ht : t.Sound) {b c : Option Marker}
    (h : b = none ∨ b ≠ c) (s : List Char) :
    t.pass b c s false = (t.leave b).write (openMark? c ++ s) := by
  by_cases hbc : b = c
  · subst hbc
    obtain rfl : b = none := h.resolve_right (absurd rfl)
    rfl
  · unfold Transcript.pass
    rw [if_neg hbc]
    cases b with
    | none => rfl
    | some m =>
      cases m with
      | think => rfl
      | tool => exact (ht.write_append toolClose _).symm

variable {ps : List Part} {buffer : List Char} {opened : Option Marker}

/-- While the numbers last, the current segment is found by its number. -/
theorem indexOf?_ofParts (h : ps.length + 1 < UInt64.size) (p : Part) :
    (ofParts ps p buffer opened).indexOf? (p.segment ps.length).id = some ps.length := by
  have hlen : ps.length < (numbered ps ++ [p.segment ps.length]).length := by simp
  show (numbered ps ++ [p.segment ps.length]).findIdx? _ = _
  refine List.findIdx?_eq_some_iff_getElem.2 ⟨hlen, by simp, fun i hi => ?_⟩
  rw [List.getElem_append_left (by simpa using hi)]
  simp only [numbered, List.getElem_mapIdx, decide_eq_true_iff]
  intro heq
  have hnumber : UInt64.ofNat (i + 1) = UInt64.ofNat (ps.length + 1) :=
    congrArg SegmentId.number heq
  have hnat := congrArg UInt64.toNat hnumber
  rw [UInt64.toNat_ofNat_of_lt' (by omega), UInt64.toNat_ofNat_of_lt' h] at hnat
  omega

/-- A block that is ended with a mark is a part with the mark in it, and text goes on after it. -/
theorem endBlock_ofParts (h : ps.length + 1 < UInt64.size) (kind : ContentType) (text : List Char)
    (m : Marker) (mark : List Char) :
    (ofParts ps ⟨kind, text, []⟩ buffer opened).endBlock m mark =
      blank (ps ++ [.block m (text ++ mark) (m.strip (text ++ mark))]) := by
  have hretype : (ofParts ps ⟨kind, text ++ mark, []⟩ (buffer ++ mark) opened).retypeCurrent m =
      ofParts ps (.block m (text ++ mark) (m.strip (text ++ mark))) (buffer ++ mark) opened := by
    have hcurrent : (ofParts ps ⟨kind, text ++ mark, []⟩ (buffer ++ mark) opened).currentSegment? =
        some (Part.segment ⟨kind, text ++ mark, []⟩ ps.length) := currentSegment?_atEnd _ _ _ _ _
    simp only [retypeCurrent, hcurrent, retype?, indexOf?_ofParts h, Option.map_some,
      Option.getD_some]
    rw [← length_numbered ps]
    exact modify_writing _ _ _ _ _ _ _
  rw [endBlock, append_ofParts, hretype, beginText_ofParts]
  rfl

/-! ### Plain text between blocks -/

theorem sound_blank (ps : List Part) : (blank ps).Sound := sound_ofParts ps _ List.suffix_rfl

/-- Some parts are finished, and the plain text after them goes on. -/
structure Awaits (ps : List Part) (plain : List Char) (t : Transcript) : Prop where
  write : ∀ s, s ≠ [] → t.write s = (blank ps).write (plain ++ s)
  segments : t.dropEmptyLast.segments = numbered (ps ++ Part.plain plain)

/-- Nothing has been said. -/
theorem awaits_empty : Awaits [] [] empty where
  write _ hs := write_empty hs
  segments := rfl

/-- Plain text in a new segment. -/
theorem awaits_write_blank (ps : List Part) {plain : List Char} (h : Marker.Absent plain) :
    Awaits ps plain ((blank ps).write plain) where
  write s _ := (sound_blank ps).write_append plain s
  segments := by rw [write_blank ps h, segments_dropEmptyLast_ofParts]

variable {plain : List Char} {t : Transcript}

/-- More plain text. -/
theorem Awaits.write_plain (h : Awaits ps plain t) {s : List Char}
    (hs : Marker.Absent (plain ++ s)) : Awaits ps (plain ++ s) (t.write s) := by
  by_cases hne : s = []
  · subst hne
    rwa [write_nil, List.append_nil]
  · rw [h.write s hne]
    exact awaits_write_blank ps hs

/-! ### A block and its end -/

/-- The transcript while text of a block is written. -/
def inBlock (ps : List Part) (m : Marker) (s : List Char) : Transcript :=
  ofParts ps ⟨m.kind, m.opening ++ '\n' :: s, []⟩ ('\n' :: s) (some m)

/-- The opening mark ends the plain text and begins the block. -/
theorem Awaits.write_openMark (h : Awaits ps plain t) (hplain : Marker.Absent plain)
    {s : List Char} {m : Marker} (hs : ¬m.closing <:+: s) :
    t.write (openMark m ++ s) = inBlock (ps ++ Part.plain (plain ++ lead m)) m s := by
  have hclosing : ¬m.closing <:+: '\n' :: s := Text.not_isInfix_cons
    (List.length_pos_iff.1 m.closing_length_pos) (Marker.newline_not_mem m).2 hs
  have hne : openMark m ++ s ≠ [] := by cases m <;> exact List.cons_ne_nil _ _
  have htext : plain ++ (openMark m ++ s) = plain ++ lead m ++ (m.opening ++ '\n' :: s) := by
    simp [Reply.openMark_eq]
  rw [h.write _ hne, htext]
  exact write_blank_opening ps (Reply.absent_append_lead hplain m) hclosing

/-- A block that is ended with the reply, or because the text after it is put in none, keeps its
whole closing mark. -/
theorem endBlock_inBlock (h : ps.length + 1 < UInt64.size) (m : Marker) (s : List Char) :
    (inBlock ps m s).endBlock m (closeMark m) =
      blank (ps ++ [.block m (enclosed m s ++ ['\n']) (Text.trim (content m s))]) := by
  rw [inBlock, endBlock_ofParts h, Reply.opening_append_closeMark, Reply.strip_enclosed]

/-- At the end of a reply the open block is ended. -/
theorem pass_inBlock_end (h : ps.length + 1 < UInt64.size) (m : Marker) (s : List Char) :
    (inBlock ps m s).pass (some m) none [] true =
      blank (ps ++ [.block m (enclosed m s ++ ['\n']) (Text.trim (content m s))]) := by
  have hpass : (inBlock ps m s).pass (some m) none [] true =
      (inBlock ps m s).endBlock m (closeMark m) := by
    cases m <;> rfl
  rw [hpass, endBlock_inBlock h]

/-- A block that is left for other text is finished, and what it leaves of its closing mark is plain
text. -/
theorem awaits_leave_inBlock (h : ps.length + 1 < UInt64.size) (m : Marker) {s : List Char}
    (hs : Marker.Absent s) {rest : List Stretch} (hrest : rest ≠ []) :
    Awaits (ps ++ [.block m (enclosed m s ++ (trail m rest).1) (Text.trim (content m s))])
      (trail m rest).2 ((inBlock ps m s).leave (some m)) := by
  cases m with
  | think =>
    have hleave : (inBlock ps .think s).leave (some .think) = _ := endBlock_inBlock h .think s
    have htrail : trail .think rest = (['\n'], []) := if_pos (.inl rfl)
    rw [hleave, htrail]
    exact awaits_write_blank _ Marker.absent_nil
  | tool =>
    have htrail : trail .tool rest = ([], ['\n']) := if_neg (by simp [hrest])
    have hclosing : ¬Marker.tool.closing <:+: '\n' :: s ++ ['\x7d', '\n'] := by
      have habsent := ((hs.concat Marker.brace_not_mem).concat Marker.newline_not_mem).cons
        Marker.newline_not_mem
      simpa using (habsent .tool).2
    have hleave : (inBlock ps .tool s).leave (some .tool) = _ := write_closing ps hclosing ['\n']
    have htext : Marker.tool.opening ++ '\n' :: s ++ (['\x7d', '\n'] ++ Marker.tool.closing) =
        enclosed .tool s := by
      simp [enclosed, content]
    have hcontent : Text.trim ('\n' :: s ++ ['\x7d', '\n']) = Text.trim (content .tool s) := by
      have heq : '\n' :: s ++ ['\x7d', '\n'] = '\n' :: (content .tool s ++ ['\n']) := by
        simp [content]
      rw [heq, Text.trim_cons (by decide), Text.trim_concat (by decide)]
    rw [hleave, htext, hcontent, htrail, List.append_nil]
    exact awaits_write_blank _ (Marker.absent_nil.cons Marker.newline_not_mem)

/-! ### All stretches -/

/-- The block that is open and the transcript, after one more stretch. -/
def follow (p : Option Marker × Transcript) (s : Stretch) : Option Marker × Transcript :=
  (s.block?, p.2.pass p.1 s.block? s.text false)

/-- At the end of a reply the transcript has the parts that its stretches make. -/
theorem segments_foldl_follow {ss : List Stretch}
    (hchain : ss.IsChain fun s s' => s.block? ≠ s'.block?)
    (habsent : ∀ s ∈ ss, Marker.Absent s.text) {b : Option Marker} (ht : t.Sound)
    (hawaits : Awaits ps plain (t.leave b)) (hb : b = none ∨ ∀ s ∈ ss.head?, b ≠ s.block?)
    (hend : ss = [] → b = none) (hplain : Marker.Absent plain)
    (hnext : ∀ s ∈ ss.head?, s.block? = none → Marker.Absent (plain ++ s.text))
    (hlen : ps.length + 2 * ss.length < UInt64.size) :
    ((ss.foldl follow (b, t)).2.pass (ss.foldl follow (b, t)).1 none []
        true).dropEmptyLast.segments =
      numbered (ps ++ layout plain ss) := by
  induction ss generalizing b t ps plain with
  | nil =>
    obtain rfl := hend rfl
    exact hawaits.segments
  | cons s ss ih =>
    obtain ⟨hhead, hrest⟩ := List.isChain_cons.1 hchain
    have hpass : t.pass b s.block? s.text false =
        (t.leave b).write (openMark? s.block? ++ s.text) :=
      ht.pass_eq_leave (hb.imp_right fun h => h s (by simp)) s.text
    have ht' := ht.pass b s.block? s.text false
    have habsent' : ∀ s ∈ ss, Marker.Absent s.text := fun s' hs' =>
      habsent s' (List.mem_cons_of_mem s hs')
    obtain ⟨c, x⟩ := s
    rw [List.foldl_cons, follow]
    cases c with
    | none =>
      -- Plain text, after which no plain text follows.
      have hmore := hnext ⟨none, x⟩ (by simp) rfl
      refine ih hrest habsent' ht' ?_ (.inl rfl) (fun _ => rfl) hmore
        (fun s' hs' hs'' => absurd hs''.symm (hhead s' hs')) (by simp at hlen; omega)
      rw [hpass]
      exact hawaits.write_plain hmore
    | some m =>
      have hx : Marker.Absent x := habsent ⟨some m, x⟩ List.mem_cons_self
      rw [hpass] at ht' ⊢
      have hopen : (t.leave b).write (openMark? (some m) ++ x) =
          inBlock (ps ++ Part.plain (plain ++ lead m)) m x :=
        hawaits.write_openMark hplain (hx m).2
      have hlength := Part.length_plain_le (plain ++ lead m)
      have hroom : (ps ++ Part.plain (plain ++ lead m)).length + 1 < UInt64.size := by
        simp at hlen ⊢
        omega
      rw [hopen] at ht' ⊢
      by_cases hss : ss = []
      · subst hss
        have htrail : trail m [] = (['\n'], []) := if_pos (.inr rfl)
        rw [List.foldl_nil, pass_inBlock_end hroom, layout, htrail, blank,
          segments_dropEmptyLast_ofParts]
        simp [layout]
      · -- The reply goes on after the block, with what the block leaves of its last newline.
        have hmore {s' : List Char} (hs' : Marker.Absent s') := Reply.absent_trail_append m ss hs'
        rw [ih hrest habsent' ht' (awaits_leave_inBlock hroom m hx hss) (.inr hhead)
          (fun h => absurd h hss) (by simpa using hmore Marker.absent_nil)
          (fun s' hs' _ => hmore (habsent' s' (List.mem_of_mem_head? hs')))
          (by simp at hlen hroom ⊢; omega), layout]
        simp

/-- Text of a block does to the transcript what its pieces do. -/
theorem follow_append {p : Option Marker × Transcript} (ht : p.2.Sound) (b : Option Marker)
    (s s' : List Char) : follow (follow p ⟨b, s⟩) ⟨b, s'⟩ = follow p ⟨b, s ++ s'⟩ :=
  Prod.ext rfl (ht.pass_append p.1 b s s')

end Transcript

/-! ### The segments of a reply -/

namespace Reply

open Transcript (follow)

/-- What deltas make of the transcript that do not end the reply, stretch by stretch. -/
theorem transcript_run_deltas {r : Reply} (hr : r.OneBlock) (ht : r.transcript.Sound)
    {ds : List Delta} (hds : ∀ d ∈ ds, d.done = false) :
    ((r.run (ds.map .delta)).1.block?, (r.run (ds.map .delta)).1.transcript) =
      (stretches ds).foldl follow (r.block?, r.transcript) := by
  have htold := congrArg (fun p : Told => (p.block?, p.transcript)) (told_run hr hds [])
  have hfold : _ = (stretches ds).foldl follow (r.block?, r.transcript) := foldl_stretches
    (fun p s (hp : p.2.Sound) => hp.pass p.1 s.block? s.text false)
    (fun _ b s s' hp => Transcript.follow_append hp b s s') ht ds
  rw [← hfold]
  exact htold.trans
    (List.foldl_hom (fun p : Told => (p.block?, p.transcript)) (fun _ _ => rfl)).symm

/-- The segments of a reply that ends without a last delta are the parts that its stretches make. -/
theorem segments_run_close (who : Identity) {ds : List Delta} (hds : ∀ d ∈ ds, d.done = false)
    (habsent : ∀ s ∈ stretches ds, Marker.Absent s.text)
    (hroom : 2 * (stretches ds).length < UInt64.size) :
    ((start who .empty).run (ds.map .delta ++ [.close])).1.transcript.segments =
      numbered (layout [] (stretches ds)) := by
  have hone := oneBlock_start who .empty
  have hdeltas := transcript_run_deltas hone Transcript.sound_empty hds
  have hclose : ((start who .empty).run (ds.map .delta ++ [.close])).1.transcript =
      (((start who .empty).run (ds.map .delta)).1.transcript.pass
        ((start who .empty).run (ds.map .delta)).1.block? none [] true).dropEmptyLast := by
    rw [run_append_singleton]
    exact transcript_advance (oneBlock_run hone _) .text [] true
  have hfold := Transcript.segments_foldl_follow (isChain_stretches ds) habsent (b := none)
    Transcript.sound_empty Transcript.awaits_empty (.inl rfl) (fun _ => rfl) Marker.absent_nil
    (fun s hs _ => habsent s (List.mem_of_mem_head? hs)) (by simp; omega)
  rw [List.nil_append, show (none, Transcript.empty) =
    ((start who .empty).block?, (start who .empty).transcript) from rfl, ← hdeltas] at hfold
  rw [hclose, hfold]

/-- The part holds the stretch: reasoning between its marks, with the reasoning as a property, or a
tool call between its marks, perhaps without the last newline, with the call and the end of its
object as a property. -/
def Holds (s : Stretch) (p : Part) : Prop :=
  match s.block? with
  | none => False
  | some .think =>
    p.kind = .think ∧ p.text = "<think>\n".toList ++ s.text ++ "\n</think>\n".toList ∧
      p.props = [("text", .ofText (Text.trim s.text))]
  | some .tool =>
    p.kind = .tool ∧
      (p.text = "<tool>\n".toList ++ s.text ++ "\x7d\n</tool>".toList ∨
        p.text = "<tool>\n".toList ++ s.text ++ "\x7d\n</tool>\n".toList) ∧
      p.props = [("text", .ofText (Text.trim (s.text ++ ['\x7d'])))]

/-- The text is that of a stretch of the answer, or none, with perhaps a newline before it. -/
def IsAnswer (ss : List Stretch) (x : List Char) : Prop :=
  ∃ before s, (before = [] ∨ before = ['\n']) ∧ (s = [] ∨ ⟨none, s⟩ ∈ ss) ∧ x = before ++ s

/-- A block holds what its stretch says. -/
theorem holds_block (m : Marker) (s : List Char) (rest : List Stretch) :
    Holds ⟨some m, s⟩
      (.block m (enclosed m s ++ (trail m rest).1) (Text.trim (content m s))) := by
  cases m with
  | think =>
    have htrail : trail .think rest = (['\n'], []) := if_pos (.inl rfl)
    have hopen : "<think>\n".toList = Marker.think.opening ++ ['\n'] := rfl
    have hclose : "\n</think>\n".toList = '\n' :: (Marker.think.closing ++ ['\n']) := rfl
    simp [Holds, Part.block, Marker.kind, enclosed, content, htrail, hopen, hclose]
  | tool =>
    have hopen : "<tool>\n".toList = Marker.tool.opening ++ ['\n'] := rfl
    have hclose : "\x7d\n</tool>".toList = '\x7d' :: '\n' :: Marker.tool.closing := rfl
    have hclose' : "\x7d\n</tool>\n".toList =
        '\x7d' :: '\n' :: (Marker.tool.closing ++ ['\n']) := rfl
    unfold trail
    split <;> simp [Holds, Part.block, Marker.kind, enclosed, content, hopen, hclose, hclose']

/-- The blocks among the parts hold the stretches of reasoning and tool calls, one each and in
order. -/
theorem forall₂_layout (plain : List Char) (ss : List Stretch) :
    List.Forall₂ Holds (ss.filter (·.block?.isSome))
      ((layout plain ss).filter (·.kind ≠ .text)) := by
  have hplain (x : List Char) : (Part.plain x).filter (·.kind ≠ .text) = [] := by
    unfold Part.plain
    split <;> simp
  induction ss generalizing plain with
  | nil =>
    rw [layout, hplain]
    exact .nil
  | cons s ss ih =>
    obtain ⟨b, s⟩ := s
    cases b with
    | none => exact ih _
    | some m =>
      have hkind (text content : List Char) : (Part.block m text content).kind ≠ .text := by
        cases m <;> exact nofun
      rw [layout, List.filter_append, hplain, List.nil_append, List.filter_cons,
        if_pos Option.isSome_some, List.filter_cons, if_pos (decide_eq_true (hkind _ _))]
      exact .cons (holds_block m s ss) (ih _)

/-- All other parts are answer, with perhaps a newline before it and one after it. -/
theorem isAnswer_of_mem_layout {all ss : List Stretch}
    (hchain : ss.IsChain fun s s' => s.block? ≠ s'.block?) (hsub : ∀ s ∈ ss, s ∈ all)
    {plain : List Char} (hplain : IsAnswer all plain)
    (hnext : ∀ s ∈ ss.head?, s.block? = none → plain = [] ∨ plain = ['\n']) {p : Part}
    (hp : p ∈ layout plain ss) (hkind : p.kind = .text) :
    p.props = [] ∧
      ∃ x after, IsAnswer all x ∧ (after = [] ∨ after = ['\n']) ∧ p.text = x ++ after := by
  have hofPlain {x : List Char} (h : p ∈ Part.plain x) : p.props = [] ∧ p.text = x := by
    unfold Part.plain at h
    split at h
    · cases h
    · rw [List.mem_singleton.1 h]
      exact ⟨rfl, rfl⟩
  induction ss generalizing plain with
  | nil =>
    obtain ⟨hprops, htext⟩ := hofPlain hp
    exact ⟨hprops, plain, [], hplain, .inl rfl, by simp [htext]⟩
  | cons s ss ih =>
    obtain ⟨hhead, hrest⟩ := List.isChain_cons.1 hchain
    have hsub' : ∀ s ∈ ss, s ∈ all := fun s' hs' => hsub s' (List.mem_cons_of_mem s hs')
    obtain ⟨b, s⟩ := s
    cases b with
    | none =>
      -- Two stretches of answer are never next to each other, so that what stands before this one
      -- is only the newline after a block.
      refine ih hrest hsub' ⟨plain, s, hnext ⟨none, s⟩ (by simp) rfl,
        .inr (hsub _ List.mem_cons_self), rfl⟩ ?_ hp
      exact fun s' hs' hs'' => absurd hs''.symm (hhead s' hs')
    | some m =>
      rcases List.mem_append.1 hp with hp | hp
      · obtain ⟨hprops, htext⟩ := hofPlain hp
        exact ⟨hprops, plain, lead m, hplain, by cases m <;> simp [lead], htext⟩
      · rcases List.mem_cons.1 hp with rfl | hp
        · cases m <;> exact nomatch hkind
        · have htrail : (trail m ss).2 = [] ∨ (trail m ss).2 = ['\n'] := by
            unfold trail
            split <;> simp
          exact ih hrest hsub' ⟨_, [], htrail, .inl rfl, by simp⟩ (fun _ _ _ => htrail) hp

/-- In the transcript of a reply whose stretches hold no markers, the stretches of reasoning and of
tool calls have one segment each, in their order, and every other segment is answer with perhaps a
newline before it and one after it. -/
theorem sections_run_close (who : Identity) (ds : List Delta) (hds : ∀ d ∈ ds, d.done = false)
    (habsent : ∀ s ∈ stretches ds, Marker.Absent s.text)
    (hroom : 2 * (stretches ds).length < UInt64.size) :
    let segments := ((start who .empty).run (ds.map .delta ++ [.close])).1.transcript.segments
    List.Forall₂ (fun s g => Holds s g.part) ((stretches ds).filter (·.block?.isSome))
        (segments.filter (·.kind ≠ .text)) ∧
      ∀ g ∈ segments, g.kind = .text →
        g.props = [] ∧
          ∃ x after, IsAnswer (stretches ds) x ∧ (after = [] ∨ after = ['\n']) ∧
            g.text = x ++ after := by
  intro segments
  have hparts : segments.map Segment.part = layout [] (stretches ds) := by
    show List.map _ (Transcript.segments _) = _
    rw [segments_run_close who hds habsent hroom, map_part_numbered]
  constructor
  · have h := forall₂_layout [] (stretches ds)
    rw [← hparts, List.filter_map, List.forall₂_map_right_iff] at h
    exact h
  · intro g hg hkind
    have hmem : g.part ∈ layout [] (stretches ds) := hparts ▸ List.mem_map_of_mem hg
    exact isAnswer_of_mem_layout (isChain_stretches ds) (fun _ hs => hs)
      ⟨[], [], .inl rfl, .inl rfl, rfl⟩ (fun _ _ _ => .inl rfl) hmem hkind

/-- Reasoning, tool calls and answer of one reply, each in a segment of its own. -/
theorem sections_run_close_mixedDeltas :
    ((∀ d ∈ mixedDeltas, d.done = false) ∧
        (∀ s ∈ stretches mixedDeltas, Marker.Absent s.text) ∧
        2 * (stretches mixedDeltas).length < UInt64.size) ∧
      List.Forall₂ (fun s g => Holds s g.part)
        [⟨some .think, "ab".toList⟩, ⟨some .tool, "c".toList⟩, ⟨some .think, "d".toList⟩,
          ⟨some .tool, "e".toList⟩]
        (((start ⟨"a", "Alpha", none⟩ .empty).run
          (mixedDeltas.map .delta ++ [.close])).1.transcript.segments.filter (·.kind ≠ .text)) := by
  have hds : ∀ d ∈ mixedDeltas, d.done = false := by decide
  have habsent : ∀ s ∈ stretches mixedDeltas, Marker.Absent s.text := by decide
  have hroom : 2 * (stretches mixedDeltas).length < UInt64.size := by decide
  exact ⟨⟨hds, habsent, hroom⟩,
    (sections_run_close ⟨"a", "Alpha", none⟩ mixedDeltas hds habsent hroom).1⟩

end Reply

end ChatRelay
