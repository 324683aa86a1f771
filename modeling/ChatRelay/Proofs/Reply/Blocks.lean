import ChatRelay.Proofs.Reply.Speaking

/-!
# Marked blocks of a reply

Reasoning and native tool calls are put between marks of the reply's own. `Reply.Said` tells those
marks from the text of the provider, and `Reply.saying` gives what a delta is said as: the block of
its channel is entered, the block before it is left, and a last delta with text leaves its own block
too. The frames bring exactly that, and the block that is open is always the one whose mark has been
said last and not been closed (`run_says`).

Main result: once a reply is done, no block is left open, unless its last delta came on a channel of
its own and without text (`closed_of_done_iff`). A provider frame can hold such a delta: a tool call
of which nothing is left to say (`closingCall_leaves_block_open`).
-/

namespace ChatRelay

open Json (Value Object)

/-- The block in which text on a channel is put. -/
def Channel.block? : Channel → Option Marker
  | think => some .think
  | toolCalls => some .tool
  | text | error | other => none

namespace Reply

/-- The mark before a block. -/
def openMark : Marker → List Char
  | .think => thinkOpen
  | .tool => toolOpen

/-- The mark after a block. -/
def closeMark : Marker → List Char
  | .think => thinkClose
  | .tool => toolClose

/-- The block that has been marked as begun and not as ended. -/
def block? (r : Reply) : Option Marker :=
  if r.thinking then some .think else if r.calling then some .tool else none

/-- A part of what a reply says: a mark of its own, or text of the provider. -/
inductive Said where
  | opens (m : Marker)
  | closes (m : Marker)
  | text (s : List Char)
deriving DecidableEq

namespace Said

/-- The characters of a part. -/
def chars : Said → List Char
  | opens m => openMark m
  | closes m => closeMark m
  | text s => s

/-- Every mark before a block is followed by the mark after that block, and no other block is begun
in between. -/
def AllClosed (ps : List Said) : Prop :=
  ∀ before m after, ps = before ++ .opens m :: after →
    ∃ inside rest, after = inside ++ .closes m :: rest ∧ ∀ n, .opens n ∉ inside

/-- The block that is open after some parts, from the one that is open before them, if the marks
among them are in order. -/
def follow : Option Marker → List Said → Option (Option Marker)
  | b, [] => some b
  | b, text _ :: ps => follow b ps
  | none, opens m :: ps => follow (some m) ps
  | some m, closes n :: ps => if m = n then follow none ps else none
  | some _, opens _ :: _ | none, closes _ :: _ => none

/-- Parts in a row are followed one after another. -/
theorem follow_append (b : Option Marker) (ps qs : List Said) :
    follow b (ps ++ qs) = (follow b ps).bind fun c => follow c qs := by
  fun_induction follow b ps with
  | case1 b => simp
  | case2 b s ps ih => simpa [follow] using ih
  | case3 m ps ih => simpa [follow] using ih
  | case4 m ps ih => simpa [follow] using ih
  | case5 m n ps h => simp [follow, h]
  | case6 => simp [follow]
  | case7 => simp [follow]

/-- A block that is open before some parts and closed after them is closed by one of them, before
any other is begun. -/
theorem exists_closes_of_follow {m : Marker} {ps : List Said}
    (h : follow (some m) ps = some none) :
    ∃ inside rest, ps = inside ++ .closes m :: rest ∧ ∀ n, .opens n ∉ inside := by
  induction ps with
  | nil => simp [follow] at h
  | cons p ps ih =>
    cases p with
    | opens n => simp [follow] at h
    | text s =>
      obtain ⟨inside, rest, rfl, hin⟩ := ih h
      exact ⟨.text s :: inside, rest, rfl, fun n hn => hin n (by simpa using hn)⟩
    | closes n =>
      by_cases hmn : m = n
      · subst hmn
        exact ⟨[], ps, rfl, by simp⟩
      · simp [follow, hmn] at h

/-- A block that is open after some parts was open before them, or the mark that begins it is the
last mark among them. -/
theorem exists_opens_of_follow {b : Option Marker} {m : Marker} {ps : List Said}
    (h : follow b ps = some (some m)) :
    (b = some m ∧ ∀ n, .closes n ∉ ps) ∨
      ∃ before after, ps = before ++ .opens m :: after ∧ ∀ n, .closes n ∉ after := by
  fun_induction follow b ps with
  | case1 b => exact .inl ⟨Option.some.inj h, by simp⟩
  | case2 b s ps ih =>
    rcases ih h with ⟨hb, hps⟩ | ⟨before, after, rfl, hafter⟩
    · exact .inl ⟨hb, fun n hn => hps n (by simpa using hn)⟩
    · exact .inr ⟨.text s :: before, after, rfl, hafter⟩
  | case3 k ps ih =>
    rcases ih h with ⟨hk, hps⟩ | ⟨before, after, rfl, hafter⟩
    · cases hk
      exact .inr ⟨[], ps, rfl, hps⟩
    · exact .inr ⟨.opens k :: before, after, rfl, hafter⟩
  | case4 k ps ih =>
    rcases ih h with ⟨hk, -⟩ | ⟨before, after, rfl, hafter⟩
    · exact absurd hk nofun
    · exact .inr ⟨.closes k :: before, after, rfl, hafter⟩
  | case5 => cases h
  | case6 => cases h
  | case7 => cases h

/-- Of marks that are in order, all are closed exactly when no block is open in the end. -/
theorem allClosed_iff {ps : List Said} {b : Option Marker} (h : follow none ps = some b) :
    AllClosed ps ↔ b = none := by
  constructor
  · intro hall
    cases b with
    | none => rfl
    | some m =>
      rcases exists_opens_of_follow h with ⟨hb, -⟩ | ⟨before, after, rfl, hafter⟩
      · exact absurd hb nofun
      · obtain ⟨inside, rest, rfl, -⟩ := hall before m after rfl
        exact absurd (by simp) (hafter m)
  · rintro rfl before m after rfl
    rw [follow_append] at h
    obtain ⟨c, -, hc⟩ := Option.bind_eq_some_iff.1 h
    cases c with
    | none => exact exists_closes_of_follow hc
    | some n => simp [follow] at hc

end Said

/-- The marks that lead from one block, or none, to another. -/
def passage (b c : Option Marker) : List Said :=
  if b = c then [] else b.toList.map .closes ++ c.toList.map .opens

/-- What a delta is said as. -/
def saying (r : Reply) (d : Delta) : List Said :=
  if d.pending ∨ d.channel = .error then []
  else
    passage r.block? d.channel.block? ++ .text d.text ::
      if d.done ∧ d.text ≠ [] then passage d.channel.block? none else []

/-- The delta that an input gives, if it gives one. -/
def delta? (r : Reply) : Input → Option Delta
  | .frame raw => (r.read raw).2
  | .delta d => some d
  | .close => some (.last [])

/-- What a run of inputs is said as. -/
def said (r : Reply) : List Input → List Said
  | [] => []
  | i :: rest => ((r.delta? i).map r.saying).getD [] ++ (r.step i).reply.said rest

/-- Not more than one block is open. -/
def OneBlock (r : Reply) : Prop :=
  r.thinking = true → r.calling = false

/-! ### What the modes become -/

variable {r : Reply}

/-- When a block is ended, whether the model thinks stays as it was. -/
@[simp] theorem thinking_endBlock (r : Reply) (m : Marker) (mark : List Char) :
    (r.endBlock m mark).1.thinking = r.thinking := by
  rw [endBlock_fst]

/-- When a block is ended, whether the model calls a tool stays as it was. -/
@[simp] theorem calling_endBlock (r : Reply) (m : Marker) (mark : List Char) :
    (r.endBlock m mark).1.calling = r.calling := by
  rw [endBlock_fst]

/-- To say a text does not change whether the model thinks. -/
@[simp] theorem thinking_say (r : Reply) (c : Channel) (text : List Char) :
    (r.say c text).1.thinking = r.thinking := by
  by_cases h : text = []
  · subst h
    rfl
  · rw [say_of_ne_nil r c h]
    rfl

/-- To say a text does not change whether the model calls a tool. -/
@[simp] theorem calling_say (r : Reply) (c : Channel) (text : List Char) :
    (r.say c text).1.calling = r.calling := by
  by_cases h : text = []
  · subst h
    rfl
  · rw [say_of_ne_nil r c h]
    rfl

/-- After the marks of thinking the model thinks exactly if the text is a thought. -/
theorem thinking_markThinking (r : Reply) (c : Channel) (text : List Char) :
    (r.markThinking c text).1.thinking = decide (c = .think) := by
  unfold markThinking
  by_cases hc : c = .think <;> cases h : r.thinking <;> simp [hc, h]

/-- The marks of thinking do not change whether the model calls a tool. -/
@[simp] theorem calling_markThinking (r : Reply) (c : Channel) (text : List Char) :
    (r.markThinking c text).1.calling = r.calling := by
  unfold markThinking
  by_cases hc : c = .think <;> cases r.thinking <;> simp [hc]

/-- The marks of a tool call do not change whether the model thinks. -/
@[simp] theorem thinking_markCalling (r : Reply) (c : Channel) (text : List Char) (done : Bool) :
    (r.markCalling c text done).1.thinking = r.thinking := by
  unfold markCalling
  by_cases hc : c = .toolCalls <;> cases r.calling <;> cases done <;> simp [hc]

/-- After the marks of a tool call the model calls a tool exactly if the text is part of a call. -/
theorem calling_markCalling (r : Reply) (c : Channel) (text : List Char) (done : Bool) :
    (r.markCalling c text done).1.calling = decide (c = .toolCalls) := by
  unfold markCalling
  by_cases hc : c = .toolCalls <;> cases h : r.calling <;> cases done <;> simp [hc, h]

/-- After text on a channel the reply thinks exactly if that was the channel for reasoning. -/
theorem thinking_advance (r : Reply) (c : Channel) (text : List Char) (done : Bool) :
    (r.advance c text done).reply.thinking = decide (c = .think) := by
  have h : ∀ t u, (((r.markThinking c text).1.markCalling c t done).1.say c u).1.thinking =
      decide (c = .think) := by
    intro t u
    rw [thinking_say, thinking_markCalling, thinking_markThinking]
  unfold advance
  cases done <;> exact h _ _

/-- After text on a channel the reply calls tools exactly if that was the channel for tool calls. -/
theorem calling_advance (r : Reply) (c : Channel) (text : List Char) (done : Bool) :
    (r.advance c text done).reply.calling = decide (c = .toolCalls) := by
  have h : ∀ t u, (((r.markThinking c text).1.markCalling c t done).1.say c u).1.calling =
      decide (c = .toolCalls) := by
    intro t u
    rw [calling_say, calling_markCalling]
  unfold advance
  cases done <;> exact h _ _

/-- After text on a channel the block of the channel is open, also when the reply ends with it. -/
theorem block?_advance (r : Reply) (c : Channel) (text : List Char) (done : Bool) :
    (r.advance c text done).reply.block? = c.block? := by
  unfold block?
  rw [thinking_advance, calling_advance]
  cases c <;> rfl

/-- Whatever is said next, not more than one block is open after it. -/
theorem oneBlock_advance (r : Reply) (c : Channel) (text : List Char) (done : Bool) :
    (r.advance c text done).reply.OneBlock := by
  unfold OneBlock
  rw [thinking_advance, calling_advance]
  cases c <;> decide

/-! ### What the frames bring -/

/-- Before the text of a channel stand the marks that lead to its block. -/
theorem contents_advance (hr : r.OneBlock) (c : Channel) (text : List Char) (done : Bool) :
    Frame.contents (r.advance c text done).frames =
      (passage r.block? c.block?).flatMap Said.chars ++ text := by
  have hframes : (r.advance c text done).frames =
      (r.markThinking c text).2.1 ++
        ((r.markThinking c text).1.markCalling c (r.markThinking c text).2.2 done).2.1 ++
        (((r.markThinking c text).1.markCalling c (r.markThinking c text).2.2 done).1.say c
          ((r.markThinking c text).1.markCalling c (r.markThinking c text).2.2 done).2.2).2 := by
    unfold advance
    cases done <;> rfl
  rw [hframes, Frame.contents_append, Frame.contents_append, contents_say]
  unfold OneBlock at hr
  unfold block? markThinking markCalling
  -- Which marks are due depends on the two modes and the channel alone.
  cases hthink : r.thinking <;> cases hcall : r.calling <;>
    first
    | exact absurd (hr hthink) (by rw [hcall]; decide)
    | cases c <;> cases done <;>
        simp [hthink, hcall, Channel.block?, passage, Said.chars, openMark, closeMark]

/-- The marks from one block to another leave the other one open. -/
@[simp] theorem follow_passage (b c : Option Marker) : Said.follow b (passage b c) = some c := by
  cases b with
  | none => cases c <;> simp [passage, Said.follow]
  | some m =>
    cases c with
    | none => simp [passage, Said.follow]
    | some n => by_cases h : m = n <;> simp [passage, Said.follow, h]

/-- From no block to no block there is no mark. -/
@[simp] theorem passage_none_none : passage none none = [] := rfl

/-- A channel without marks of its own has no block. -/
theorem block?_eq_none {c : Channel} (h : ¬(c = .think ∨ c = .toolCalls)) : c.block? = none := by
  cases c with
  | think => exact absurd (.inl rfl) h
  | toolCalls => exact absurd (.inr rfl) h
  | _ => rfl

/-- A delta is said as `saying` tells, and leaves the block open that its marks leave open. -/
theorem take_says (hr : r.OneBlock) (d : Delta) :
    Frame.contents (r.take d).frames = (r.saying d).flatMap Said.chars ∧
      Said.follow r.block? (r.saying d) = some (r.take d).reply.block? ∧
      (r.take d).reply.OneBlock := by
  unfold take saying
  by_cases hpending : d.pending = true
  · rw [if_pos hpending, if_pos (.inl hpending)]
    exact ⟨rfl, rfl, hr⟩
  by_cases herror : d.channel = .error
  · rw [if_neg hpending, if_pos herror, if_pos (.inr herror)]
    exact ⟨rfl, rfl, hr⟩
  rw [if_neg hpending, if_neg herror, if_neg (not_or.2 ⟨hpending, herror⟩)]
  have hfirst := contents_advance hr d.channel d.text
  by_cases hlast : d.done = true ∧ d.text ≠ [] ∧ (d.channel = .think ∨ d.channel = .toolCalls)
  · -- The last delta of a block counts as its text and then the bare end.
    have hone := oneBlock_advance r d.channel d.text false
    have hsecond := contents_advance hone .text [] true
    rw [block?_advance] at hsecond
    rw [if_pos hlast, if_pos ⟨hlast.1, hlast.2.1⟩]
    refine ⟨?_, ?_, oneBlock_advance _ _ _ _⟩
    · show Frame.contents (_ ++ _) = _
      rw [Frame.contents_append, hfirst, hsecond]
      simp [Said.chars, Channel.block?]
    · show _ = some (Reply.block? _)
      rw [block?_advance, Said.follow_append, follow_passage]
      exact follow_passage _ _
  · rw [if_neg hlast]
    have hrest :
        (if d.done = true ∧ d.text ≠ [] then passage d.channel.block? none else []) = [] := by
      split
      · next h =>
        have hb : d.channel.block? = none := block?_eq_none fun hc => hlast ⟨h.1, h.2, hc⟩
        rw [hb, passage_none_none]
      · rfl
    rw [hrest]
    refine ⟨?_, ?_, oneBlock_advance _ _ _ _⟩
    · rw [hfirst]
      simp [Said.chars]
    · rw [block?_advance, Said.follow_append, follow_passage]
      rfl

/-- What an input is said as. -/
theorem step_says (hr : r.OneBlock) (i : Input) :
    Frame.contents (r.step i).frames = (((r.delta? i).map r.saying).getD []).flatMap Said.chars ∧
      Said.follow r.block? (((r.delta? i).map r.saying).getD []) = some (r.step i).reply.block? ∧
      (r.step i).reply.OneBlock := by
  cases i with
  | delta d => exact take_says hr d
  | close => exact take_says hr (.last [])
  | frame raw =>
    show Frame.contents (r.takeFrame raw).frames = _ ∧ _ = some (r.takeFrame raw).reply.block? ∧
      (r.takeFrame raw).reply.OneBlock
    rw [takeFrame_eq, delta?]
    cases (r.read raw).2 with
    | none => exact ⟨rfl, rfl, hr⟩
    | some d => exact take_says (r := { r with pending := (r.read raw).1 }) hr d

/-- What a run of inputs is said as: its frames bring all of it, and the marks among it are in
order. -/
theorem run_says (hr : r.OneBlock) (inputs : List Input) :
    Frame.contents (r.run inputs).2 = (r.said inputs).flatMap Said.chars ∧
      Said.follow r.block? (r.said inputs) = some (r.run inputs).1.block? ∧
      (r.run inputs).1.OneBlock := by
  induction inputs generalizing r with
  | nil => exact ⟨rfl, rfl, hr⟩
  | cons i rest ih =>
    obtain ⟨hcontents, hfollow, hone⟩ := step_says hr i
    obtain ⟨ihcontents, ihfollow, ihone⟩ := ih hone
    refine ⟨?_, ?_, ihone⟩
    · show Frame.contents (_ ++ _) = List.flatMap Said.chars (_ ++ _)
      rw [Frame.contents_append, List.flatMap_append, hcontents, ihcontents]
    · show Said.follow _ (_ ++ _) = _
      rw [Said.follow_append, hfollow]
      exact ihfollow

/-- One input does not leave more than one block open. -/
theorem oneBlock_step (hr : r.OneBlock) (i : Input) : (r.step i).reply.OneBlock := by
  obtain ⟨-, -, h⟩ := step_says hr i
  exact h

/-- Nor do many. -/
theorem oneBlock_run (hr : r.OneBlock) (inputs : List Input) : (r.run inputs).1.OneBlock := by
  obtain ⟨-, -, h⟩ := run_says hr inputs
  exact h

/-! ### The end of a reply -/

/-- A reply that no delta has reached has no block open. -/
theorem oneBlock_start (who : Identity) (t : Transcript) : (start who t).OneBlock := fun _ => rfl

/-- One more input after a run. -/
theorem run_append_singleton (r : Reply) (inputs : List Input) (i : Input) :
    (r.run (inputs ++ [i])).1 = ((r.run inputs).1.step i).reply := by
  induction inputs generalizing r with
  | nil => rfl
  | cons j rest ih => exact ih _

/-- A delta with which a reply is done leaves no block open, unless it comes without text on a
channel of its own. -/
theorem block?_take_of_done {d : Delta} (h : (r.take d).step = .done) :
    (r.take d).reply.block? = if d.text = [] then d.channel.block? else none := by
  unfold take at h ⊢
  by_cases hpending : d.pending = true
  · simp [hpending] at h
  by_cases herror : d.channel = .error
  · simp [hpending, herror] at h
  rw [if_neg hpending, if_neg herror] at h ⊢
  by_cases hlast : d.done = true ∧ d.text ≠ [] ∧ (d.channel = .think ∨ d.channel = .toolCalls)
  · rw [if_pos hlast, if_neg hlast.2.1, block?_advance]
    rfl
  · rw [if_neg hlast] at h ⊢
    have hdone : d.done = true := by
      cases hd : d.done with
      | true => rfl
      | false => simp [advance, hd] at h
    rw [block?_advance]
    split
    · rfl
    · next htext => exact block?_eq_none fun hc => hlast ⟨hdone, htext, hc⟩

/-- The same for any input with which a reply is done. -/
theorem block?_step_of_done {i : Input} (h : (r.step i).step = .done) :
    ∃ d, r.delta? i = some d ∧
      (r.step i).reply.block? = if d.text = [] then d.channel.block? else none := by
  cases i with
  | delta d => exact ⟨d, rfl, block?_take_of_done h⟩
  | close => exact ⟨.last [], rfl, block?_take_of_done h⟩
  | frame raw =>
    change (r.takeFrame raw).step = .done at h
    show ∃ d, (r.read raw).2 = some d ∧ (r.takeFrame raw).reply.block? = _
    rw [takeFrame_eq] at h ⊢
    cases hread : (r.read raw).2 with
    | none => simp [hread] at h
    | some d =>
      rw [hread] at h
      exact ⟨d, rfl, block?_take_of_done h⟩

/-- Whether a block is open is whether the reply thinks or calls tools. -/
theorem block?_eq_none_iff (r : Reply) :
    r.block? = none ↔ r.thinking = false ∧ r.calling = false := by
  unfold block?
  cases r.thinking <;> cases r.calling <;> simp

/-- What a reply has said when an input ends it is marked blocks that are all closed, and its modes
are off, exactly if the delta of that input does not come without text on a channel of its own. -/
theorem closed_of_done_iff (who : Identity) (inputs : List Input) (i : Input)
    (h : (((start who .empty).run inputs).1.step i).step = .done) :
    Frame.contents ((start who .empty).run (inputs ++ [i])).2 =
        ((start who .empty).said (inputs ++ [i])).flatMap Said.chars ∧
      (((((start who .empty).run inputs).1.step i).reply.thinking = false ∧
          (((start who .empty).run inputs).1.step i).reply.calling = false ∧
          Said.AllClosed ((start who .empty).said (inputs ++ [i]))) ↔
        ¬∃ d, ((start who .empty).run inputs).1.delta? i = some d ∧
          d.text = [] ∧ (d.channel = .think ∨ d.channel = .toolCalls)) := by
  obtain ⟨hcontents, hfollow, -⟩ := run_says (oneBlock_start who .empty) (inputs ++ [i])
  refine ⟨hcontents, ?_⟩
  obtain ⟨d, hd, hblock⟩ := block?_step_of_done h
  rw [run_append_singleton] at hfollow
  rw [← and_assoc, ← block?_eq_none_iff, Said.allClosed_iff hfollow, and_self, hblock]
  constructor
  · rintro hnone ⟨d', hd', htext, hc⟩
    cases hd.symm.trans hd'
    rw [if_pos htext] at hnone
    rcases hc with hc | hc <;> simp [hc, Channel.block?] at hnone
  · intro hnot
    split
    · next htext => exact block?_eq_none fun hc => hnot ⟨d, hd, htext, hc⟩
    · rfl

/-- A provider frame with the beginning of a tool call. -/
def openingCall : List UInt8 :=
  Text.utf8 ("\x7b\"choices\":[\x7b\"delta\":\x7b\"tool_calls\":[\x7b\"index\":0,\"id\":\"c1\"," ++
    "\"function\":\x7b\"name\":\"f\",\"arguments\":\"\x7b\"\x7d\x7d]\x7d\x7d]\x7d").toList

/-- A tool call that the provider leaves open is closed when its stream ends. -/
theorem closed_of_done_close :
    (((start ⟨"a", "Alpha", none⟩ .empty).run [.frame openingCall]).1.step .close).step = .done ∧
      Said.AllClosed ((start ⟨"a", "Alpha", none⟩ .empty).said [.frame openingCall, .close]) := by
  have h : (((start ⟨"a", "Alpha", none⟩ .empty).run [.frame openingCall]).1.step .close).step =
      .done := by decide +kernel
  refine ⟨h, ((closed_of_done_iff ⟨"a", "Alpha", none⟩ _ _ h).2.2 ?_).2.2⟩
  rintro ⟨d, hd, -, hc⟩
  cases hd
  exact absurd hc (by decide)

/-- A last chunk with a part of a tool call that says nothing. -/
def closingCall : List UInt8 :=
  Text.utf8 ("\x7b\"choices\":[\x7b\"delta\":\x7b\"tool_calls\":[\x7b\"index\":0," ++
    "\"function\":\x7b\"arguments\":\"\"\x7d\x7d]\x7d," ++
    "\"finish_reason\":\"tool_calls\"\x7d]\x7d").toList

/-- A last chunk with a part of a tool call that says nothing ends the reply inside of the call. -/
theorem closingCall_leaves_block_open :
    (((start ⟨"a", "Alpha", none⟩ .empty).run [.frame openingCall]).1.takeFrame closingCall).step =
        .done ∧
      ((start ⟨"a", "Alpha", none⟩ .empty).run
        [.frame openingCall, .frame closingCall]).1.calling = true ∧
      ¬Said.AllClosed
        ((start ⟨"a", "Alpha", none⟩ .empty).said [.frame openingCall, .frame closingCall]) := by
  refine ⟨by decide +kernel, by decide +kernel, ?_⟩
  have hfollow : Said.follow none
      ((start ⟨"a", "Alpha", none⟩ .empty).said [.frame openingCall, .frame closingCall]) =
        some (some .tool) := by decide +kernel
  rw [Said.allClosed_iff hfollow]
  exact nofun

end Reply

end ChatRelay
