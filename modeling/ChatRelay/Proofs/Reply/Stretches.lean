import ChatRelay.Proofs.Reply.Framing
import Mathlib.Data.List.SplitBy

/-!
# Stretches of a reply

The visible deltas of a reply fall into stretches: as many as follow each other and are put in the
same block, or in none. What a reply makes of deltas that do not end it can be told by stretches
(`Reply.foldl_stretches`), since text in pieces is the text. In particular the client reads the text
of the stretches, with the marks of a block around each stretch that is put in one and no others
(`Reply.contents_run_close`).
-/

namespace ChatRelay

/-- Whether two deltas are put in the same block, or both in none. -/
def Delta.sameBlock (d e : Delta) : Bool :=
  d.channel.block? = e.channel.block?

/-- The text of visible deltas that follow each other, and the block in which all of them are put,
if they are. -/
structure Stretch where
  block? : Option Marker
  text : List Char
deriving DecidableEq

namespace Stretch

/-- A stretch of one delta. -/
def ofDelta (d : Delta) : Stretch := ⟨d.channel.block?, d.text⟩

/-- The stretch of deltas that are put in one block. -/
def ofDeltas (ds : List Delta) : Stretch :=
  ⟨ds.head?.bind (·.channel.block?), ds.flatMap Delta.text⟩

end Stretch

/-- The longest stretches of the visible ones among some deltas. -/
def stretches (ds : List Delta) : List Stretch :=
  ((ds.filter Delta.isVisible).splitBy Delta.sameBlock).map .ofDeltas

/-! ### Deltas and stretches -/

/-- All deltas of a stretch are put in its block. -/
theorem block?_of_isChain {ds : List Delta} (h : ds.IsChain (Delta.sameBlock · ·)) {d : Delta}
    (hd : d ∈ ds) : d.channel.block? = (Stretch.ofDeltas ds).block? := by
  cases ds with
  | nil => cases hd
  | cons e ds =>
    rcases List.mem_cons.1 hd with rfl | hd
    · rfl
    · have htrans : IsTrans Delta (Delta.sameBlock · ·) :=
        ⟨fun a b c hab hbc => by
          simp only [Delta.sameBlock, decide_eq_true_iff] at hab hbc ⊢
          exact hab.trans hbc⟩
      have hpair := (List.pairwise_cons.1 (List.isChain_iff_pairwise.1 h)).1 d hd
      simp only [Delta.sameBlock, decide_eq_true_iff] at hpair
      exact hpair.symm

/-- Of two stretches that follow each other, each is put in a block of its own. -/
theorem isChain_stretches (ds : List Delta) :
    (stretches ds).IsChain fun s s' => s.block? ≠ s'.block? := by
  unfold stretches
  rw [List.isChain_map]
  refine (List.isChain_getLast_head_splitBy _ _).imp_of_mem_imp ?_
  rintro g g' hg hg' ⟨hne, hne', hdiff⟩ heq
  have hlast := block?_of_isChain (List.isChain_of_mem_splitBy hg) (List.getLast_mem hne)
  have hhead := block?_of_isChain (List.isChain_of_mem_splitBy hg') (List.head_mem hne')
  simp only [Delta.sameBlock, decide_eq_false_iff_not] at hdiff
  exact hdiff (hlast.trans (heq.trans hhead.symm))

/-- The stretches hold the visible text. -/
theorem flatMap_text_stretches (ds : List Delta) :
    (stretches ds).flatMap Stretch.text = (ds.filter Delta.isVisible).flatMap Delta.text := by
  conv_rhs =>
    rw [← List.flatten_splitBy Delta.sameBlock (ds.filter Delta.isVisible),
      List.flatten_eq_flatMap, List.flatMap_assoc]
  exact List.flatMap_map Stretch.ofDeltas Stretch.text _

section

variable {σ : Type} {step : σ → Stretch → σ} {inv : σ → Prop}

/-- If text in pieces counts as the text, further deltas of a stretch add their text to it. -/
theorem foldl_of_block?
    (hjoin : ∀ x b s s', inv x → step (step x ⟨b, s⟩) ⟨b, s'⟩ = step x ⟨b, s ++ s'⟩)
    {x : σ} (hx : inv x) {b : Option Marker} {ds : List Delta}
    (hds : ∀ d ∈ ds, d.channel.block? = b) (s : List Char) :
    ds.foldl (fun x d => step x (.ofDelta d)) (step x ⟨b, s⟩) =
      step x ⟨b, s ++ ds.flatMap Delta.text⟩ := by
  induction ds generalizing s with
  | nil => simp
  | cons d ds ih =>
    have hd : Stretch.ofDelta d = ⟨b, d.text⟩ := by
      rw [Stretch.ofDelta, hds d List.mem_cons_self]
    rw [List.foldl_cons, hd, hjoin x b s d.text hx,
      ih (fun e he => hds e (List.mem_cons_of_mem d he)), List.flatMap_cons, List.append_assoc]

/-- And so a whole stretch counts as the deltas that it is made of. -/
theorem foldl_of_isChain
    (hjoin : ∀ x b s s', inv x → step (step x ⟨b, s⟩) ⟨b, s'⟩ = step x ⟨b, s ++ s'⟩)
    {x : σ} (hx : inv x) {ds : List Delta} (hne : ds ≠ [])
    (hchain : ds.IsChain (Delta.sameBlock · ·)) :
    ds.foldl (fun x d => step x (.ofDelta d)) x = step x (.ofDeltas ds) := by
  obtain ⟨d, ds, rfl⟩ := List.exists_cons_of_ne_nil hne
  exact foldl_of_block? hjoin hx
    (fun e he => block?_of_isChain hchain (List.mem_cons_of_mem d he)) d.text

/-- What is told of each visible delta in turn can be told of the stretches, if text in pieces
counts as the text. -/
theorem foldl_stretches (hstep : ∀ x s, inv x → inv (step x s))
    (hjoin : ∀ x b s s', inv x → step (step x ⟨b, s⟩) ⟨b, s'⟩ = step x ⟨b, s ++ s'⟩)
    {x : σ} (hx : inv x) (ds : List Delta) :
    (ds.filter Delta.isVisible).foldl (fun x d => step x (.ofDelta d)) x =
      (stretches ds).foldl step x := by
  have hgroups (gs : List (List Delta))
      (hgs : ∀ g ∈ gs, g ≠ [] ∧ g.IsChain (Delta.sameBlock · ·)) :
      gs.flatten.foldl (fun x d => step x (.ofDelta d)) x =
        (gs.map Stretch.ofDeltas).foldl step x := by
    induction gs generalizing x with
    | nil => rfl
    | cons g gs ih =>
      obtain ⟨hne, hchain⟩ := hgs g List.mem_cons_self
      rw [List.flatten_cons, List.foldl_append, foldl_of_isChain hjoin hx hne hchain,
        ih (hstep x _ hx) (fun g' hg' => hgs g' (List.mem_cons_of_mem g hg')), List.map_cons,
        List.foldl_cons]
  have h := hgroups ((ds.filter Delta.isVisible).splitBy Delta.sameBlock) fun g hg =>
    ⟨List.ne_nil_of_mem_splitBy hg, List.isChain_of_mem_splitBy hg⟩
  rwa [List.flatten_splitBy] at h

end

namespace Reply

variable {r : Reply}

/-! ### Runs of deltas -/

/-- The block that is open, the transcript, and what the client has read. -/
structure Told where
  block? : Option Marker
  transcript : Transcript
  read : List Char

/-- What one more stretch makes of it. -/
def Told.tell (p : Told) (s : Stretch) : Told where
  block? := s.block?
  transcript := p.transcript.pass p.block? s.block? s.text false
  read := p.read ++ ((passage p.block? s.block?).flatMap Said.chars ++ s.text)

/-- What is not visible brings nothing and changes neither the transcript nor the block. -/
theorem take_of_not_isVisible (r : Reply) {d : Delta} (h : d.isVisible = false) :
    (r.take d).reply.transcript = r.transcript ∧ (r.take d).reply.block? = r.block? ∧
      (r.take d).frames = [] := by
  unfold take
  by_cases hpending : d.pending = true
  · rw [if_pos hpending]
    exact ⟨rfl, rfl, rfl⟩
  · have herror : d.channel = .error := by
      simpa [Delta.isVisible, hpending] using h
    rw [if_neg hpending, if_pos herror]
    exact ⟨rfl, rfl, rfl⟩

/-- What deltas make of a reply that do not end it, each visible one being a stretch of its own. -/
theorem told_run (hr : r.OneBlock) {ds : List Delta} (hds : ∀ d ∈ ds, d.done = false)
    (read : List Char) :
    (⟨(r.run (ds.map .delta)).1.block?, (r.run (ds.map .delta)).1.transcript,
        read ++ Frame.contents (r.run (ds.map .delta)).2⟩ : Told) =
      (ds.filter Delta.isVisible).foldl (fun p d => p.tell (.ofDelta d))
        ⟨r.block?, r.transcript, read⟩ := by
  induction ds generalizing r read with
  | nil => simp [run]
  | cons d ds ih =>
    have hone : (r.take d).reply.OneBlock := oneBlock_step hr (.delta d)
    have hrest := ih hone (fun e he => hds e (List.mem_cons_of_mem d he))
    have hrun : r.run ((d :: ds).map .delta) =
        (((r.take d).reply.run (ds.map .delta)).1,
          (r.take d).frames ++ ((r.take d).reply.run (ds.map .delta)).2) := rfl
    rw [hrun, Frame.contents_append, ← List.append_assoc, hrest]
    cases hvisible : d.isVisible with
    | false =>
      obtain ⟨htranscript, hblock, hframes⟩ := r.take_of_not_isVisible hvisible
      rw [htranscript, hblock, hframes, List.filter_cons_of_neg (by simp [hvisible])]
      simp
    | true =>
      have hpiece : d.isPiece = true := by
        simp [Delta.isPiece, hvisible, hds d List.mem_cons_self]
      rw [take_of_isPiece r hpiece, block?_advance, contents_advance hr, transcript_advance hr,
        List.filter_cons_of_pos hvisible]
      rfl

/-! ### What the client reads -/

/-- The mark after a block, if there is one. -/
def closeMark? (b : Option Marker) : List Char :=
  (b.map closeMark).getD []

/-- A stretch with the marks of its block around it. -/
def marked (s : Stretch) : List Char :=
  openMark? s.block? ++ s.text ++ closeMark? s.block?

/-- The block that is open and what the client has read, after one more stretch. -/
def tellClient (p : Option Marker × List Char) (s : Stretch) : Option Marker × List Char :=
  (s.block?, p.2 ++ ((passage p.1 s.block?).flatMap Said.chars ++ s.text))

/-- Text of a block is read as one, whether or not it comes in pieces. -/
theorem tellClient_append (p : Option Marker × List Char) (b : Option Marker) (s s' : List Char) :
    tellClient (tellClient p ⟨b, s⟩) ⟨b, s'⟩ = tellClient p ⟨b, s ++ s'⟩ := by
  have hsame : passage b b = [] := if_pos rfl
  simp [tellClient, hsame]

/-- What the client has read of deltas that do not end the reply, stretch by stretch. -/
theorem contents_run_deltas (hr : r.OneBlock) {ds : List Delta} (hds : ∀ d ∈ ds, d.done = false) :
    ((r.run (ds.map .delta)).1.block?, Frame.contents (r.run (ds.map .delta)).2) =
      (stretches ds).foldl tellClient (r.block?, []) := by
  have htold := congrArg (fun p : Told => (p.block?, p.read)) (told_run hr hds [])
  have hfold : _ = (stretches ds).foldl tellClient (r.block?, []) :=
    foldl_stretches (fun _ _ _ => trivial) (fun p b s s' (_ : True) => tellClient_append p b s s')
      trivial ds
  rw [← hfold]
  exact htold.trans (List.foldl_hom (fun p : Told => (p.block?, p.read)) (fun _ _ => rfl)).symm

/-- From one block to another, the one is closed and the other opened. -/
theorem chars_passage {b c : Option Marker} (h : b = none ∨ b ≠ c) :
    (passage b c).flatMap Said.chars = closeMark? b ++ openMark? c := by
  by_cases hbc : b = c
  · subst hbc
    obtain rfl : b = none := h.resolve_right (absurd rfl)
    rfl
  · cases b <;> cases c <;> simp_all [passage, Said.chars, closeMark?, openMark?]

/-- The stretches of a reply are read with their marks, after the mark that closes the block before
them. -/
theorem foldl_tellClient {ss : List Stretch} (hss : ss.IsChain fun s s' => s.block? ≠ s'.block?)
    {b : Option Marker} (hb : b = none ∨ ∀ s ∈ ss.head?, b ≠ s.block?) (read : List Char) :
    (ss.foldl tellClient (b, read)).2 ++ closeMark? (ss.foldl tellClient (b, read)).1 =
      read ++ closeMark? b ++ ss.flatMap marked := by
  induction ss generalizing b read with
  | nil => simp
  | cons s ss ih =>
    obtain ⟨hhead, hrest⟩ := List.isChain_cons.1 hss
    have hbs : b = none ∨ b ≠ s.block? := hb.imp_right fun h => h s (by simp)
    rw [List.foldl_cons, tellClient, ih hrest (.inr hhead), chars_passage hbs, List.flatMap_cons,
      marked]
    simp

/-- The client of a reply that ends without a last delta has read its stretches, with the opening
mark of a block before and the closing mark after each stretch that is put in one, and the stretches
hold the visible text. -/
theorem contents_run_close (who : Identity) (t : Transcript) (ds : List Delta)
    (hds : ∀ d ∈ ds, d.done = false) :
    Frame.contents ((start who t).run (ds.map .delta ++ [.close])).2 =
        (stretches ds).flatMap marked ∧
      (stretches ds).flatMap Stretch.text = (ds.filter Delta.isVisible).flatMap Delta.text ∧
      (stretches ds).IsChain fun s s' => s.block? ≠ s'.block? := by
  refine ⟨?_, flatMap_text_stretches ds, isChain_stretches ds⟩
  have hone := oneBlock_start who t
  have hdeltas := contents_run_deltas hone hds
  have hclose : Frame.contents
      (((start who t).run (ds.map .delta)).1.step .close).frames =
        closeMark? ((start who t).run (ds.map .delta)).1.block? := by
    show Frame.contents (Reply.advance _ .text [] true).frames = _
    rw [contents_advance (oneBlock_run hone _)]
    cases (run (start who t) (ds.map .delta)).1.block? <;>
      simp [Channel.block?, passage, Said.chars, closeMark?]
  have hfold := foldl_tellClient (isChain_stretches ds) (b := none) (.inl rfl) []
  rw [show (start who t).block? = none from rfl] at hdeltas
  rw [← hdeltas] at hfold
  rw [run_append, Frame.contents_append]
  simp only [run, List.append_nil]
  rw [hclose, hfold]
  rfl

/-- Deltas on every channel: reasoning in two pieces around text that could not be understood, and
tool calls before reasoning, after it and before the answer. -/
def mixedDeltas : List Delta :=
  [.on .think "a".toList, .unread "?".toList, .on .think "b".toList, .on .toolCalls "c".toList,
    .on .think "d".toList, .on .toolCalls "e".toList, .on .text "f".toList, .on .other "g".toList]

/-- The marks between reasoning, tool calls and answer. -/
theorem contents_run_close_mixedDeltas :
    (∀ d ∈ mixedDeltas, d.done = false) ∧
      Frame.contents
          ((start ⟨"a", "Alpha", none⟩ .empty).run (mixedDeltas.map .delta ++ [.close])).2 =
        ("<think>\nab\n</think>\n\n<tool>\nc\x7d\n</tool>\n<think>\nd\n</think>\n" ++
          "\n<tool>\ne\x7d\n</tool>\nfg").toList := by
  have hds : ∀ d ∈ mixedDeltas, d.done = false := by decide
  refine ⟨hds, (contents_run_close ⟨"a", "Alpha", none⟩ .empty mixedDeltas hds).1.trans ?_⟩
  decide

end Reply

end ChatRelay
