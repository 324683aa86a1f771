import ChatRelay.Proofs.Provider.Joining
import ChatRelay.Proofs.Reply.Sections

/-!
# Tool calls in fragments

A provider sends the calls of a reply in fragments: the first of a call has its id and its name, and
the arguments come in pieces, over any number of frames. What a fragment adds to the text of the
calls does not depend on the frame that it comes in, and the object of a call is ended by the first
fragment of the next call or by the mark after all of them. So however the arguments are cut, and
however the fragments are grouped into frames, the client reads one block with the whole objects of
the calls, each on a line of its own, and the transcript has that block as its only tool segment
(`Reply.run_toolCalls`).
-/

namespace ChatRelay

open Json (Value Object)

namespace Provider

/-! ### Calls and their fragments -/

/-- A whole call of a tool. -/
structure ToolCall where
  id : String
  name : String
  arguments : List Char

/-- The arguments that a fragment brings. -/
def ToolCallPart.piece (part : ToolCallPart) : List Char :=
  ((part.function.bind FunctionPart.arguments).getD "").toList

/-- The text with which the object of a call begins: its id and its name as JSON strings. -/
def callHead (id name : String) : List Char :=
  "\x7b\"id\":".toList ++ Json.renderString id.toList ++ ",\"function\":".toList ++
    Json.renderString name.toList ++ ",\"arguments\":".toList

/-- The object of a call without its end. -/
def ToolCall.opened (c : ToolCall) : List Char :=
  callHead c.id c.name ++ c.arguments

/-- The object of a call, with the arguments as they came. -/
def ToolCall.object (c : ToolCall) : List Char :=
  c.opened ++ ['\x7d']

/-- The objects of calls, each on a line of its own. -/
def bodyOf (calls : List ToolCall) : List Char :=
  ['\n'].intercalate (calls.map ToolCall.object)

/-- The fragments of one call with an index: the first has the id and the name, the others have
neither, and together they bring the arguments. -/
structure ToolCall.ComesIn (c : ToolCall) (index : Nat) (first : ToolCallPart)
    (more : List ToolCallPart) : Prop where
  index_eq : first.index = index
  id_eq : first.id = some c.id
  name_eq : first.function.bind FunctionPart.name = some c.name
  more_bare : ∀ part ∈ more, part.id = none ∧ part.function.bind FunctionPart.name = none
  arguments_eq : (first :: more).flatMap ToolCallPart.piece = c.arguments

/-- The fragments of calls that have their indexes from a number on, call after call. -/
inductive Fragments : Nat → List ToolCall → List ToolCallPart → Prop
  | nil (index : Nat) : Fragments index [] []
  | cons {index : Nat} {c : ToolCall} {calls : List ToolCall} {first : ToolCallPart}
    {more parts : List ToolCallPart} (own : c.ComesIn index first more)
    (rest : Fragments (index + 1) calls parts) :
    Fragments index (c :: calls) (first :: more ++ parts)

/-! ### What fragments add to the text -/

/-- A fragment without id and name adds its piece of the arguments. -/
theorem toolCallText_of_bare {part : ToolCallPart} (hid : part.id = none)
    (hname : part.function.bind FunctionPart.name = none) : toolCallText part = part.piece := by
  unfold toolCallText
  rw [hid, hname]
  rfl

/-- A fragment with id and name begins an object, after the end of the object before it. -/
theorem toolCallText_of_named {part : ToolCallPart} {id name : String} (hid : part.id = some id)
    (hname : part.function.bind FunctionPart.name = some name) :
    toolCallText part =
      (if 0 < part.index then "\x7d\n".toList else []) ++ callHead id name ++ part.piece := by
  unfold toolCallText callHead ToolCallPart.piece
  rw [hid, hname]
  simp only [Option.isSome_some, Bool.or_true, if_true, Option.getD_some, List.append_assoc]

/-- The fragments of a call add its object without the end, after the end of the object before it.
-/
theorem ToolCall.ComesIn.flatMap_eq {c : ToolCall} {index : Nat} {first : ToolCallPart}
    {more : List ToolCallPart} (h : c.ComesIn index first more) :
    (first :: more).flatMap toolCallText =
      (if 0 < index then "\x7d\n".toList else []) ++ c.opened := by
  have hmore : more.flatMap toolCallText = more.flatMap ToolCallPart.piece :=
    List.flatMap_congr fun part hpart =>
      toolCallText_of_bare (h.more_bare part hpart).1 (h.more_bare part hpart).2
  have harguments := h.arguments_eq
  rw [List.flatMap_cons] at harguments ⊢
  rw [hmore, toolCallText_of_named h.id_eq h.name_eq, h.index_eq, ToolCall.opened, ← harguments,
    List.append_assoc, List.append_assoc]

/-- The fragments of calls after others add their objects, each after the end of the one before it.
-/
theorem Fragments.flatMap_eq {index : Nat} {calls : List ToolCall} {parts : List ToolCallPart}
    (h : Fragments index calls parts) (hindex : 0 < index) :
    parts.flatMap toolCallText = calls.flatMap fun c => "\x7d\n".toList ++ c.opened := by
  induction h with
  | nil => rfl
  | cons own rest ih =>
    rw [List.flatMap_append, own.flatMap_eq, if_pos hindex, ih (Nat.succ_pos _), List.flatMap_cons]

/-- Objects that are each ended by what comes next are whole objects on lines of their own. -/
theorem opened_append_flatMap (c : ToolCall) (calls : List ToolCall) :
    c.opened ++ (calls.flatMap fun c => "\x7d\n".toList ++ c.opened) ++ ['\x7d'] =
      bodyOf (c :: calls) := by
  -- The end of an object stands at the beginning of what the next one adds, so each step of the
  -- induction takes one end over to the object that it belongs to.
  induction calls generalizing c with
  | nil => simp [bodyOf, ToolCall.object]
  | cons next calls ih =>
    have hlines : bodyOf (c :: next :: calls) = c.object ++ '\n' :: bodyOf (next :: calls) := by
      simp [bodyOf, List.intercalate_cons_cons]
    rw [hlines, ← ih next, List.flatMap_cons]
    simp [ToolCall.object]

/-- The fragments of all calls add their objects, but for the end of the last. -/
theorem Fragments.flatMap_append_eq {calls : List ToolCall} {parts : List ToolCallPart}
    (h : Fragments 0 calls parts) (hne : calls ≠ []) :
    parts.flatMap toolCallText ++ ['\x7d'] = bodyOf calls := by
  cases h with
  | nil => exact absurd rfl hne
  | cons own rest =>
    rw [List.flatMap_append, own.flatMap_eq, if_neg (Nat.lt_irrefl 0), List.nil_append,
      rest.flatMap_eq (Nat.succ_pos 0), opened_append_flatMap]

/-- Calls have fragments. -/
theorem Fragments.ne_nil {index : Nat} {calls : List ToolCall} {parts : List ToolCallPart}
    (h : Fragments index calls parts) (hne : calls ≠ []) : parts ≠ [] := by
  cases h with
  | nil => exact absurd rfl hne
  | cons own rest => exact List.cons_ne_nil _ _

/-- The objects of calls have no blanks around them. -/
theorem trim_bodyOf {calls : List ToolCall} (hne : calls ≠ []) :
    Text.trim (bodyOf calls) = bodyOf calls := by
  obtain ⟨c, calls, rfl⟩ := List.exists_cons_of_ne_nil hne
  obtain ⟨head, hhead⟩ : ∃ head, callHead c.id c.name = '\x7b' :: head := ⟨_, rfl⟩
  rw [← opened_append_flatMap, ToolCall.opened, hhead, List.cons_append, List.cons_append,
    List.cons_append]
  exact Text.trim_of_ends (by decide) (by decide) _

/-! ### Frames with fragments -/

/-- The first of the choices of an object that reports no error. -/
def firstChoice? (o : Object) : Option Choice :=
  if ((Table.get? o "error").filter (!·.isNull)).isSome then none
  else (Table.get? o "choices").bind fun choices =>
    (decodeChoices choices).toOption.bind List.head?

/-- The first choice of a frame that carries data and reports no error. -/
structure HasChoice (raw : List UInt8) (c : Choice) : Prop where
  carriesData : Delta.isControlLine (Text.trim (Text.decode raw)) = false
  first_eq : (((Value.parse? (Delta.dataOf (Text.trim (Text.decode raw)))).bind
    Value.asObject?).bind firstChoice?) = some c

/-- Such a frame is read as its first choice. -/
theorem HasChoice.ofFrame?_eq {raw : List UInt8} {c : Choice} (h : HasChoice raw c) :
    Delta.ofFrame? raw = c.delta? := by
  obtain ⟨o, ho, hfirst⟩ := Option.bind_eq_some_iff.1 h.first_eq
  obtain ⟨v, hparse, hv⟩ := Option.bind_eq_some_iff.1 ho
  obtain rfl : v = .object o := by
    unfold Value.asObject? at hv
    split at hv
    · rw [Option.some.inj hv]
    · exact nomatch hv
  unfold firstChoice? at hfirst
  split at hfirst
  · exact nomatch hfirst
  next herror =>
    obtain ⟨choices, hchoices, hhead⟩ := Option.bind_eq_some_iff.1 hfirst
    have hnone : ((Value.object o).member? "error").filter (!·.isNull) = none :=
      Option.not_isSome_iff_eq_none.1 herror
    have hsome : (Value.object o).member? "choices" = some choices := hchoices
    have hobject : Delta.HoldsObject raw o := ⟨h.carriesData, hparse⟩
    rw [hobject.ofFrame?_eq, Delta.ofObject?, hnone, hsome]
    dsimp only
    cases hdecode : decodeChoices choices with
    | error _ =>
      rw [hdecode] at hhead
      exact absurd hhead.symm (Option.some_ne_none c)
    | ok cs =>
      rw [hdecode] at hhead
      have hcs : cs.head? = some c := hhead
      dsimp only
      rw [hcs, Option.bind_some]

/-- A choice brings fragments of tool calls, or nothing, and does not end the reply. -/
structure Choice.Brings (c : Choice) (parts : List ToolCallPart) : Prop where
  toolCalls_eq : c.addition.toolCalls = parts
  no_reasoning : nonEmpty? (c.addition.reasoningContent.or c.addition.reasoning) = none
  no_content : parts = [] → nonEmpty? c.addition.content = none
  goes_on : c.finishReason = none

/-- A choice ends the reply and brings nothing. -/
structure Choice.OnlyEnds (c : Choice) : Prop where
  no_toolCalls : c.addition.toolCalls = []
  no_reasoning : nonEmpty? (c.addition.reasoningContent.or c.addition.reasoning) = none
  no_content : nonEmpty? c.addition.content = none
  ends : c.finishReason.isSome

/-- A choice that brings parts of tool calls gives their text. -/
theorem Choice.Brings.delta?_eq {c : Choice} {parts : List ToolCallPart} (h : c.Brings parts) :
    c.delta? = if parts = [] then none else some (.on .toolCalls (parts.flatMap toolCallText)) := by
  unfold Choice.delta?
  dsimp only
  rw [h.no_reasoning, h.toolCalls_eq, h.goes_on]
  cases parts with
  | nil =>
    rw [h.no_content rfl]
    rfl
  | cons part parts => rfl

/-- A choice that only ends the reply gives a last delta without text. -/
theorem Choice.OnlyEnds.delta?_eq {c : Choice} (h : c.OnlyEnds) : c.delta? = some (.last []) := by
  unfold Choice.delta?
  dsimp only
  rw [h.no_reasoning, h.no_toolCalls, h.no_content, h.ends]
  rfl

/-- A frame that brings fragments of tool calls, or nothing. -/
def Carries (raw : List UInt8) (parts : List ToolCallPart) : Prop :=
  ∃ c, HasChoice raw c ∧ c.Brings parts

/-- A frame that carries parts of tool calls is read as their text. -/
theorem Carries.ofFrame?_eq {raw : List UInt8} {parts : List ToolCallPart} (h : Carries raw parts) :
    Delta.ofFrame? raw =
      if parts = [] then none else some (.on .toolCalls (parts.flatMap toolCallText)) := by
  obtain ⟨c, hchoice, hbrings⟩ := h
  rw [hchoice.ofFrame?_eq, hbrings.delta?_eq]

/-- What the frames of fragments are read as, all together. -/
theorem filterMap_ofFrame?_of_carries {raws : List (List UInt8)} {groups : List (List ToolCallPart)}
    (h : List.Forall₂ Carries raws groups) :
    (∀ d ∈ raws.filterMap Delta.ofFrame?, ∃ s, d = .on .toolCalls s) ∧
      (raws.filterMap Delta.ofFrame?).flatMap Delta.text = groups.flatten.flatMap toolCallText ∧
      (raws.filterMap Delta.ofFrame? = [] → groups.flatten = []) := by
  induction h with
  | nil => exact ⟨fun d hd => absurd hd List.not_mem_nil, rfl, fun _ => rfl⟩
  | @cons raw parts raws groups hraw _ ih =>
    obtain ⟨hcalls, htext, hnil⟩ := ih
    have hread := hraw.ofFrame?_eq
    by_cases hparts : parts = []
    · rw [if_pos hparts] at hread
      rw [List.filterMap_cons_none hread, List.flatten_cons, hparts, List.nil_append]
      exact ⟨hcalls, htext, hnil⟩
    · rw [if_neg hparts] at hread
      rw [List.filterMap_cons_some hread, List.flatten_cons, List.flatMap_append, List.flatMap_cons,
        htext]
      refine ⟨fun d hd => ?_, rfl, nofun⟩
      rcases List.mem_cons.1 hd with rfl | hd
      · exact ⟨_, rfl⟩
      · exact hcalls d hd

end Provider

open Provider (ToolCall ToolCallPart Fragments Carries HasChoice bodyOf)

/-- The deltas of tool calls that follow each other make one stretch. -/
theorem stretches_of_toolCalls {ds : List Delta} (hne : ds ≠ [])
    (h : ∀ d ∈ ds, ∃ s, d = .on .toolCalls s) :
    stretches ds = [⟨some .tool, ds.flatMap Delta.text⟩] := by
  have hvisible : ds.filter Delta.isVisible = ds := by
    refine List.filter_eq_self.2 fun d hd => ?_
    obtain ⟨s, rfl⟩ := h d hd
    rfl
  have hchain : ds.IsChain (Delta.sameBlock · ·) := by
    refine List.Pairwise.isChain (List.pairwise_iff_forall_sublist.2 fun {d d'} hsub => ?_)
    obtain ⟨s, rfl⟩ := h d (hsub.subset List.mem_cons_self)
    obtain ⟨s', rfl⟩ := h d' (hsub.subset (List.mem_cons_of_mem _ List.mem_cons_self))
    rfl
  rw [stretches, hvisible, List.splitBy_of_isChain hne hchain, List.map_singleton]
  obtain ⟨d, ds, rfl⟩ := List.exists_cons_of_ne_nil hne
  obtain ⟨s, rfl⟩ := h d List.mem_cons_self
  rfl

namespace Reply

/-! ### Replies -/

/-- If all frames can be read, a reply takes them as what they are read as. -/
theorem run_frames {r : Reply} (hr : r.pending = []) {raws : List (List UInt8)}
    (h : ∀ d ∈ raws.filterMap Delta.ofFrame?, d.pending = false) :
    r.run (raws.map .frame) = r.run ((raws.filterMap Delta.ofFrame?).map .delta) := by
  induction raws generalizing r with
  | nil => rfl
  | cons raw raws ih =>
    have hrun : r.run ((raw :: raws).map .frame) =
        (((r.takeFrame raw).reply.run (raws.map .frame)).1,
          (r.takeFrame raw).frames ++ ((r.takeFrame raw).reply.run (raws.map .frame)).2) := rfl
    rw [hrun, r.takeFrame_of_pending_nil hr]
    cases hd : Delta.ofFrame? raw with
    | none =>
      rw [List.filterMap_cons_none hd] at h ⊢
      exact ih hr h
    | some d =>
      rw [List.filterMap_cons_some hd] at h ⊢
      have hread : (r.take d).reply.pending = [] := by
        rw [pending_take, h d List.mem_cons_self]
        exact hr
      rw [Option.map_some, Option.getD_some,
        ih hread fun e he => h e (List.mem_cons_of_mem d he)]
      rfl

/-- Deltas that can be read leave nothing pending. -/
theorem pending_run_deltas {r : Reply} (hr : r.pending = []) {ds : List Delta}
    (hds : ∀ d ∈ ds, d.pending = false) : (r.run (ds.map .delta)).1.pending = [] := by
  induction ds generalizing r with
  | nil => exact hr
  | cons d ds ih =>
    have hread : (r.take d).reply.pending = [] := by
      rw [pending_take, hds d List.mem_cons_self]
      exact hr
    exact ih hread fun e he => hds e (List.mem_cons_of_mem d he)

/-- An input that ends a reply and brings nothing: the end of the stream, the mark of its end, or a
chunk that says no more than that the reply has ended. -/
inductive Input.OnlyEnds : Input → Prop
  | close : OnlyEnds .close
  | doneMark {raw : List UInt8} (hdata : Delta.isControlLine (Text.trim (Text.decode raw)) = false)
    (hdone : Delta.dataOf (Text.trim (Text.decode raw)) = "[DONE]".toList) : OnlyEnds (.frame raw)
  | finish {raw : List UInt8} {c : Provider.Choice} (hchoice : HasChoice raw c)
    (hends : c.OnlyEnds) : OnlyEnds (.frame raw)

/-- Such an input is the bare end of the reply. -/
theorem step_of_onlyEnds {r : Reply} (hr : r.pending = []) {i : Input} (h : i.OnlyEnds) :
    r.step i = r.advance .text [] true := by
  have hlast {raw : List UInt8} (hread : Delta.ofFrame? raw = some (.last [])) :
      r.step (.frame raw) = r.advance .text [] true := by
    show r.takeFrame raw = _
    rw [r.takeFrame_of_pending_nil hr, hread]
    rfl
  cases h with
  | close => rfl
  | doneMark hdata hdone =>
    refine hlast ?_
    rw [Delta.ofFrame?_eq, Delta.ofLine?, hdata, hdone]
    rfl
  | finish hchoice hends => exact hlast (hchoice.ofFrame?_eq.trans hends.delta?_eq)

/-- The reply that fragments of tool calls leave, and what the client has read of it, after nothing
has been said before: a block that has begun with all their text. -/
structure Calling (s : List Char) (r : Reply) (frames : List Frame) : Prop where
  oneBlock : r.OneBlock
  pending_eq : r.pending = []
  block?_eq : r.block? = some .tool
  transcript_eq : r.transcript = Transcript.empty.pass none (some .tool) s false
  contents_eq : Frame.contents frames = toolOpen ++ s

/-- The frames of fragments lead to such a reply. -/
theorem calling_run (who : Identity) {raws : List (List UInt8)} {groups : List (List ToolCallPart)}
    (h : List.Forall₂ Carries raws groups) (hne : groups.flatten ≠ []) :
    Calling (groups.flatten.flatMap Provider.toolCallText)
      ((start who .empty).run (raws.map .frame)).1
      ((start who .empty).run (raws.map .frame)).2 := by
  obtain ⟨hcalls, htext, hnil⟩ := Provider.filterMap_ofFrame?_of_carries h
  have hpending : ∀ d ∈ raws.filterMap Delta.ofFrame?, d.pending = false := by
    intro d hd
    obtain ⟨s, rfl⟩ := hcalls d hd
    rfl
  have hgoes : ∀ d ∈ raws.filterMap Delta.ofFrame?, d.done = false := by
    intro d hd
    obtain ⟨s, rfl⟩ := hcalls d hd
    rfl
  -- Frames that bring nothing are no deltas, so only the deltas count, and these make one stretch.
  rw [run_frames rfl hpending]
  generalize raws.filterMap Delta.ofFrame? = ds at hcalls htext hnil hpending hgoes
  have hstretches := stretches_of_toolCalls (fun h => hne (hnil h)) hcalls
  rw [htext] at hstretches
  have hone := oneBlock_start who .empty
  have htranscript := transcript_run_deltas hone Transcript.sound_empty hgoes
  have hcontents := contents_run_deltas hone hgoes
  rw [hstretches] at htranscript hcontents
  obtain ⟨hblock, htranscript⟩ := Prod.mk.inj htranscript
  exact {
    oneBlock := oneBlock_run hone _
    pending_eq := pending_run_deltas rfl hpending
    block?_eq := hblock
    transcript_eq := htranscript
    contents_eq := (Prod.mk.inj hcontents).2 }

/-- At the end of such a reply the block is ended, and nothing comes after it. -/
theorem Calling.advance_last {s : List Char} {r : Reply} {frames : List Frame}
    (h : Calling s r frames) (hs : ¬Marker.tool.closing <:+: s) :
    Frame.contents (frames ++ (r.advance .text [] true).frames) = toolOpen ++ s ++ toolClose ∧
      (r.advance .text [] true).reply.transcript.segments =
        numbered [⟨.text, ['\n'], []⟩,
          .block .tool (enclosed .tool s ++ ['\n']) (Text.trim (content .tool s))] := by
  constructor
  · rw [Frame.contents_append, h.contents_eq, contents_advance h.oneBlock, h.block?_eq]
    simp [Channel.block?, passage, Said.chars, closeMark]
  · have hopen : r.transcript = Transcript.inBlock [⟨.text, ['\n'], []⟩] .tool s := by
      rw [h.transcript_eq, Transcript.sound_empty.pass_eq_leave (.inl rfl)]
      exact Transcript.awaits_empty.write_openMark Marker.absent_nil hs
    have hroom : [(⟨.text, ['\n'], []⟩ : Part)].length + 1 < UInt64.size := by decide
    have hlast : (r.advance .text [] true).reply.transcript =
        (r.transcript.pass r.block? none [] true).dropEmptyLast :=
      transcript_advance h.oneBlock .text [] true
    rw [hlast, h.block?_eq, hopen, Transcript.pass_inBlock_end hroom, Transcript.blank,
      Transcript.segments_dropEmptyLast_ofParts]
    rfl

/-- The fragments of whole calls, in any number of frames and however their arguments are cut, bring
one block in which the objects of the calls stand on lines of their own, if the reply then ends and
no closing marker of the block stands in their text. The client reads nothing else, and the
transcript has the block as its only tool segment, with the objects as its property. -/
theorem run_toolCalls (who : Identity) {calls : List ToolCall} {groups : List (List ToolCallPart)}
    {raws : List (List UInt8)} {last : Input} (hcalls : calls ≠ [])
    (hparts : Fragments 0 calls groups.flatten) (hraws : List.Forall₂ Carries raws groups)
    (hlast : last.OnlyEnds) (hbody : ¬"</tool>".toList <:+: bodyOf calls) :
    Frame.contents ((start who .empty).run (raws.map .frame ++ [last])).2 =
        "\n<tool>\n".toList ++ bodyOf calls ++ "\n</tool>\n".toList ∧
      ∃ g, (((start who .empty).run (raws.map .frame ++ [last])).1.transcript.segments.filter
          fun g => g.kind = .tool) = [g] ∧
        g.props = [("text", .ofText (bodyOf calls))] := by
  have hcalling := calling_run who hraws (hparts.ne_nil hcalls)
  have hjoined := hparts.flatMap_append_eq hcalls
  generalize groups.flatten.flatMap Provider.toolCallText = s at hcalling hjoined
  -- While the block is open it lacks the end of its last object, and has no marker that the body
  -- has not.
  have hs : ¬Marker.tool.closing <:+: s := by
    intro hclosing
    refine hbody (hclosing.trans ?_)
    rw [← hjoined]
    exact List.infix_append' [] s ['\x7d']
  obtain ⟨htext, hsegments⟩ := hcalling.advance_last hs
  have hstep := step_of_onlyEnds hcalling.pending_eq hlast
  constructor
  · have hend (r : Reply) : (r.run [last]).2 = (r.step last).frames ++ [] := rfl
    have hclose : toolClose = '\x7d' :: "\n</tool>\n".toList := by decide
    rw [run_append, hend, hstep, List.append_nil, htext, ← hjoined, hclose]
    simp only [List.append_assoc, List.cons_append, List.nil_append]
    rfl
  · have hcontent : Text.trim (content .tool s) = bodyOf calls := by
      rw [content, hjoined, Provider.trim_bodyOf hcalls]
    rw [run_append_singleton, hstep, hsegments, hcontent]
    generalize enclosed .tool s ++ ['\n'] = text
    generalize bodyOf calls = body
    exact ⟨_, rfl, rfl⟩

/-- A provider frame with a choice. -/
def frameOf (choice : String) : List UInt8 :=
  Text.utf8 ("\x7b\"choices\":[" ++ choice ++ "]\x7d").toList

/-- The fragments of two calls. The second call begins in the frame that brings the end of the
first. -/
def fragmentsOfTwo : List (List ToolCallPart) :=
  [[⟨0, some "c1", some ⟨some "f", some "\x7b"⟩⟩],
    [⟨0, none, some ⟨none, some "\x7d"⟩⟩, ⟨1, some "c2", some ⟨some "g", none⟩⟩],
    [⟨1, none, some ⟨none, some "[]"⟩⟩]]

/-- The frames of these fragments. -/
def framesOfTwo : List (List UInt8) :=
  [frameOf ("\x7b\"delta\":\x7b\"tool_calls\":[\x7b\"index\":0,\"id\":\"c1\"," ++
      "\"function\":\x7b\"name\":\"f\",\"arguments\":\"\x7b\"\x7d\x7d]\x7d\x7d"),
    frameOf ("\x7b\"delta\":\x7b\"tool_calls\":[" ++
      "\x7b\"index\":0,\"function\":\x7b\"arguments\":\"\x7d\"\x7d\x7d," ++
      "\x7b\"index\":1,\"id\":\"c2\",\"function\":\x7b\"name\":\"g\"\x7d\x7d]\x7d\x7d"),
    frameOf ("\x7b\"delta\":\x7b\"tool_calls\":[\x7b\"index\":1," ++
      "\"function\":\x7b\"arguments\":\"[]\"\x7d\x7d]\x7d\x7d")]

/-- A last frame that says no more than that the reply has ended. -/
def finishFrame : List UInt8 :=
  frameOf "\x7b\"delta\":\x7b\x7d,\"finish_reason\":\"tool_calls\"\x7d"

/-- The client reads both calls whole. -/
theorem run_toolCalls_two :
    Frame.contents ((start ⟨"a", "Alpha", none⟩ .empty).run
        (framesOfTwo.map .frame ++ [.frame finishFrame])).2 =
      ("\n<tool>\n\x7b\"id\":\"c1\",\"function\":\"f\",\"arguments\":\x7b\x7d\x7d\n" ++
        "\x7b\"id\":\"c2\",\"function\":\"g\",\"arguments\":[]\x7d\n</tool>\n").toList := by
  have hfirst : ToolCall.ComesIn ⟨"c1", "f", "\x7b\x7d".toList⟩ 0
      ⟨0, some "c1", some ⟨some "f", some "\x7b"⟩⟩ [⟨0, none, some ⟨none, some "\x7d"⟩⟩] :=
    ⟨rfl, rfl, rfl, by decide, by decide⟩
  have hsecond : ToolCall.ComesIn ⟨"c2", "g", "[]".toList⟩ 1
      ⟨1, some "c2", some ⟨some "g", none⟩⟩ [⟨1, none, some ⟨none, some "[]"⟩⟩] :=
    ⟨rfl, rfl, rfl, by decide, by decide⟩
  have hparts : Fragments 0 [⟨"c1", "f", "\x7b\x7d".toList⟩, ⟨"c2", "g", "[]".toList⟩]
      fragmentsOfTwo.flatten := by
    have hboth := Fragments.cons hfirst (.cons hsecond (.nil 2))
    exact hboth
  have hcarries {raw : List UInt8} {parts : List ToolCallPart}
      (h : HasChoice raw ⟨⟨none, none, none, parts⟩, none⟩) : Carries raw parts :=
    ⟨_, h, ⟨rfl, rfl, fun _ => rfl, rfl⟩⟩
  have hraws : List.Forall₂ Carries framesOfTwo fragmentsOfTwo :=
    .cons (hcarries ⟨by decide +kernel, by decide +kernel⟩)
      (.cons (hcarries ⟨by decide +kernel, by decide +kernel⟩)
        (.cons (hcarries ⟨by decide +kernel, by decide +kernel⟩) .nil))
  have hchoice : HasChoice finishFrame ⟨⟨none, none, none, []⟩, some "tool_calls"⟩ :=
    ⟨by decide +kernel, by decide +kernel⟩
  have hlast : Input.OnlyEnds (.frame finishFrame) :=
    .finish hchoice ⟨rfl, rfl, rfl, rfl⟩
  rw [(run_toolCalls ⟨"a", "Alpha", none⟩ (List.cons_ne_nil _ _) hparts hraws hlast
    (by decide +kernel)).1]
  decide +kernel

end Reply

end ChatRelay
