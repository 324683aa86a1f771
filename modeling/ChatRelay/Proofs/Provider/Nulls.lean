import ChatRelay.Proofs.Json.Nulls
import ChatRelay.Proofs.Json.Rereading
import ChatRelay.Proofs.Provider.Joining

/-!
# Nulls in completion chunks

Most fields of a chunk may be absent or null, and mean the same in both cases: the texts of an
addition, the id and the function of a tool call, the name and the arguments of a function, and the
reason for which a reply has ended. But what a choice adds, and the tool calls of an addition, may
only be absent. Where one of them is null the whole chunk cannot be understood and is left unread
(`Delta.ofObject?_of_hasNullDefault`); no other null makes a difference
(`Delta.ofObject?_of_withoutNulls`).
-/

namespace ChatRelay

open Json (Value Object Decoder Shape SameButNull DropsNulls SameOr AsObjects AsArrays At)

/-! ### Decoding -/

/-- Items that decode alike one by one decode alike. -/
theorem mapM_eq_of_forall₂ {α β ε : Type} {f : α → Except ε β} {as as' : List α}
    (h : List.Forall₂ (fun a a' => f a' = f a) as as') : as'.mapM f = as.mapM f := by
  induction h with
  | nil => rfl
  | cons ha _ ih => rw [List.mapM_cons, List.mapM_cons, ha, ih]

/-- Items of which one does not decode do not decode. -/
theorem exists_error_of_mem_mapM {α β ε : Type} {f : α → Except ε β} {as : List α} {a : α}
    (ha : a ∈ as) (hfails : ∃ x, f a = .error x) : ∃ x, as.mapM f = .error x := by
  induction as with
  | nil => exact absurd ha List.not_mem_nil
  | cons b as ih =>
    rw [List.mapM_cons]
    cases hb : f b with
    | error x => exact ⟨x, rfl⟩
    | ok c =>
      rcases List.mem_cons.1 ha with rfl | hmem
      · obtain ⟨x, hx⟩ := hfails
        exact nomatch hb.symm.trans hx
      · obtain ⟨x, hx⟩ := ih hmem
        rw [hx]
        exact ⟨x, rfl⟩

variable {o o' : Object} {α : Type}

namespace Json.Shape

variable (s : Shape) {field : String} (decode : Decoder α)

/-- A field of an object that may be null: nothing, or its value. -/
theorem nullable_named (o : Object) (field : String) (decode : Decoder α) :
    s.nullable (.named o) field decode =
      match o.get? field with
      | some v => Decoder.nullable decode v
      | none => .ok none := rfl

/-- A field of an object that has a value when it is absent. -/
theorem defaulted_named (o : Object) (field : String) (absent : α) (decode : Decoder α) :
    s.defaulted (.named o) field absent decode =
      match o.get? field with
      | some v => decode v
      | none => .ok absent := rfl

/-- A field that may be null decodes in the same way if its null is absent. -/
theorem nullable_of_sameButNull (h : SameButNull o o' field) :
    s.nullable (.named o') field decode = s.nullable (.named o) field decode := by
  rw [nullable_named, nullable_named]
  rcases h with hsame | ⟨hnull, hnone⟩
  · rw [hsame]
  · rw [hnull, hnone]
    rfl

/-- The same for a field whose values may differ otherwise, but decode in the same way. -/
theorem nullable_of_dropsNulls {may : String → Prop} {R : Object → Object → Prop}
    (h : DropsNulls may (At field (AsObjects R)) o o')
    (hR : ∀ p p', R p p' → decode (.object p') = decode (.object p)) :
    s.nullable (.named o') field decode = s.nullable (.named o) field decode := by
  rcases h field with hsame | ⟨-, hnull, hnone⟩ | ⟨v, v', hv, hv', -, hinside⟩
  · exact s.nullable_of_sameButNull decode (.inl hsame)
  · exact s.nullable_of_sameButNull decode (.inr ⟨hnull, hnone⟩)
  · cases hinside with
    | object hp =>
      rw [nullable_named, nullable_named, hv, hv']
      exact congrArg (Except.map some) (hR _ _ hp)

end Json.Shape

namespace Provider

namespace FunctionPart

/-- The second of two functions is the first without some nulls. -/
def WithoutNulls : Object → Object → Prop :=
  DropsNulls (· ∈ ["name", "arguments"]) fun _ _ _ => False

/-- A function out of an object. -/
theorem decode_object (o : Object) : decode (.object o) = (do
    let name ← shape.nullable (.named o) "name" .string
    let arguments ← shape.nullable (.named o) "arguments" .string
    return { name, arguments }) := rfl

/-- A function decodes in the same way without those nulls. -/
theorem decode_of_withoutNulls (h : WithoutNulls o o') :
    decode (.object o') = decode (.object o) := by
  have hfield (key : String) : SameButNull o o' key := DropsNulls.sameButNull h fun _ _ => id
  rw [decode_object, decode_object, shape.nullable_of_sameButNull _ (hfield "name"),
    shape.nullable_of_sameButNull _ (hfield "arguments")]

end FunctionPart

namespace ToolCallPart

/-- The second of two tool calls is the first without some nulls, also of its function. -/
def WithoutNulls : Object → Object → Prop :=
  DropsNulls (· ∈ ["id", "function"]) (At "function" (AsObjects FunctionPart.WithoutNulls))

/-- A tool call out of an object. -/
theorem decode_object (o : Object) : decode (.object o) = (do
    let index ← shape.defaulted (.named o) "index" 0 (.natural "usize")
    let id ← shape.nullable (.named o) "id" .string
    let function ← shape.nullable (.named o) "function" FunctionPart.decode
    return { index, id, function }) := rfl

/-- A tool call decodes in the same way without those nulls. -/
theorem decode_of_withoutNulls (h : WithoutNulls o o') :
    decode (.object o') = decode (.object o) := by
  have hindex : o'.get? "index" = o.get? "index" :=
    h.get?_eq "index" (by decide) fun _ _ hat => absurd hat.1 (by decide)
  have hfunction := shape.nullable_of_dropsNulls FunctionPart.decode h
    fun _ _ => FunctionPart.decode_of_withoutNulls
  rw [decode_object, decode_object, shape.defaulted_named, shape.defaulted_named, hindex,
    shape.nullable_of_sameButNull _ (h.sameButNull_of_ne "id" (by decide)), hfunction]

/-- The same for a tool call that may be no object. -/
theorem decode_of_sameOr {v v' : Value} (h : SameOr WithoutNulls v v') : decode v' = decode v := by
  cases h with
  | same => rfl
  | object ho => exact decode_of_withoutNulls ho

end ToolCallPart

namespace Addition

/-- The second of two additions is the first without some nulls, also of its tool calls. -/
def WithoutNulls : Object → Object → Prop :=
  DropsNulls (· ∈ ["content", "reasoning_content", "reasoning", "tool_calls"])
    (At "tool_calls" (AsArrays (SameOr ToolCallPart.WithoutNulls)))

/-- The tool calls of an addition are null. -/
def HasNullCalls (v : Value) : Prop := v.member? "tool_calls" = some .null

/-- An addition out of an object. -/
theorem decode_object (o : Object) : decode (.object o) = (do
    let content ← shape.nullable (.named o) "content" .string
    let reasoningContent ← shape.nullable (.named o) "reasoning_content" .string
    let reasoning ← shape.nullable (.named o) "reasoning" .string
    let toolCalls ← shape.defaulted (.named o) "tool_calls" [] (.list ToolCallPart.decode)
    return { content, reasoningContent, reasoning, toolCalls }) := rfl

/-- Tool calls that are null cannot be understood. -/
theorem exists_error_of_hasNullCalls {v : Value} (h : HasNullCalls v) :
    ∃ x, decode v = .error x := by
  cases v with
  | object o =>
    have hcalls : Table.get? o "tool_calls" = some .null := h
    have hfails : shape.defaulted (.named o) "tool_calls" [] (.list ToolCallPart.decode) =
        .error (.wrongType .null "a sequence") := by
      rw [shape.defaulted_named, hcalls]
      rfl
    rw [decode_object, hfails]
    cases shape.nullable (.named o) "content" Decoder.string with
    | error x => exact ⟨x, rfl⟩
    | ok content =>
      cases shape.nullable (.named o) "reasoning_content" Decoder.string with
      | error x => exact ⟨x, rfl⟩
      | ok reasoningContent =>
        cases shape.nullable (.named o) "reasoning" Decoder.string with
        | error x => exact ⟨x, rfl⟩
        | ok reasoning => exact ⟨_, rfl⟩
  | _ => exact nomatch h

/-- What is added decodes in the same way without its nulls, but for tool calls that are null. -/
theorem decode_of_withoutNulls (h : WithoutNulls o o') (hcalls : ¬HasNullCalls (.object o)) :
    decode (.object o') = decode (.object o) := by
  have htoolCalls : shape.defaulted (.named o') "tool_calls" [] (.list ToolCallPart.decode) =
      shape.defaulted (.named o) "tool_calls" [] (.list ToolCallPart.decode) := by
    rw [shape.defaulted_named, shape.defaulted_named]
    rcases h "tool_calls" with hsame | ⟨-, hnull, -⟩ | ⟨v, v', hv, hv', -, hinside⟩
    · rw [hsame]
    · exact absurd hnull hcalls
    · cases hinside with
      | array hitems =>
        rw [hv, hv']
        exact mapM_eq_of_forall₂ (hitems.imp fun _ _ => ToolCallPart.decode_of_sameOr)
  rw [decode_object, decode_object, htoolCalls,
    shape.nullable_of_sameButNull _ (h.sameButNull_of_ne "content" (by decide)),
    shape.nullable_of_sameButNull _ (h.sameButNull_of_ne "reasoning_content" (by decide)),
    shape.nullable_of_sameButNull _ (h.sameButNull_of_ne "reasoning" (by decide))]

end Addition

namespace Choice

/-- The second of two choices is the first without some nulls, also of what it adds. -/
def WithoutNulls : Object → Object → Prop :=
  DropsNulls (· ∈ ["delta", "finish_reason"]) (At "delta" (AsObjects Addition.WithoutNulls))

/-- What a choice adds is null, or the tool calls in it are. -/
def HasNullDefault (v : Value) : Prop :=
  v.member? "delta" = some .null ∨ ∃ d, v.member? "delta" = some d ∧ Addition.HasNullCalls d

/-- A choice out of an object. -/
theorem decode_object (o : Object) : decode (.object o) = (do
    let addition ← shape.defaulted (.named o) "delta" Addition.none Addition.decode
    let finishReason ← shape.nullable (.named o) "finish_reason" .string
    return { addition, finishReason }) := rfl

/-- A choice with a null that may only be absent cannot be understood. -/
theorem exists_error_of_hasNullDefault {v : Value} (h : HasNullDefault v) :
    ∃ x, decode v = .error x := by
  cases v with
  | object o =>
    have hfails : ∃ x, shape.defaulted (.named o) "delta" Addition.none Addition.decode =
        .error x := by
      rw [shape.defaulted_named]
      rcases h with hnull | ⟨d, hd, hcalls⟩
      · have hget : Table.get? o "delta" = some .null := hnull
        rw [hget]
        exact ⟨_, rfl⟩
      · have hget : Table.get? o "delta" = some d := hd
        rw [hget]
        exact Addition.exists_error_of_hasNullCalls hcalls
    obtain ⟨x, hx⟩ := hfails
    rw [decode_object, hx]
    exact ⟨x, rfl⟩
  | _ => rcases h with hnull | ⟨d, hd, -⟩ <;> contradiction

/-- A choice decodes in the same way without its nulls, unless it has one that may only be absent.
-/
theorem decode_of_sameOr {v v' : Value} (h : SameOr WithoutNulls v v') (hv : ¬HasNullDefault v) :
    decode v' = decode v := by
  cases h with
  | same => rfl
  | @object o o' ho =>
    have haddition : shape.defaulted (.named o') "delta" Addition.none Addition.decode =
        shape.defaulted (.named o) "delta" Addition.none Addition.decode := by
      rw [shape.defaulted_named, shape.defaulted_named]
      rcases ho "delta" with hsame | ⟨-, hnull, -⟩ | ⟨d, d', hd, hd', -, hinside⟩
      · rw [hsame]
      · exact absurd (.inl hnull) hv
      · cases hinside with
        | object hadded =>
          rw [hd, hd']
          exact Addition.decode_of_withoutNulls hadded fun hcalls => hv (.inr ⟨_, hd, hcalls⟩)
    rw [decode_object, decode_object, haddition,
      shape.nullable_of_sameButNull _ (ho.sameButNull_of_ne "finish_reason" (by decide))]

end Choice

end Provider

namespace Delta

open Provider

/-- The second of two chunks is the first without some nulls in its choices. -/
def WithoutNulls : Object → Object → Prop :=
  DropsNulls (fun _ => False) (At "choices" (AsArrays (SameOr Choice.WithoutNulls)))

/-- A chunk reports an error, and so its choices do not count. -/
def ReportsError (o : Object) : Prop :=
  ∃ error, o.get? "error" = some error ∧ error.isNull = false

/-- Some choice of a chunk has a null that may only be absent. -/
def HasNullDefault (o : Object) : Prop :=
  ∃ items, o.get? "choices" = some (.array items) ∧ ∃ v ∈ items, Choice.HasNullDefault v

/-- Whether a frame is read, and not left unread. -/
def IsUnderstood (raw : List UInt8) : Prop :=
  ∀ d, ofFrame? raw = some d → d.pending = false

/-- The error of a chunk counts, and nothing else of it, if it is there and not null. -/
theorem filter_error_eq_none (h : ¬ReportsError o) :
    ((Value.object o).member? "error").filter (!·.isNull) = none := by
  rw [Option.filter_eq_none_iff]
  intro error herror hnull
  exact h ⟨error, herror, by simpa using hnull⟩

/-- A chunk with a null that may only be absent is left unread. -/
theorem ofObject?_of_hasNullDefault (data : List Char) (herror : ¬ReportsError o)
    (hnull : HasNullDefault o) : ofObject? data (.object o) = some (.unread data) := by
  obtain ⟨items, hitems, v, hmem, hv⟩ := hnull
  have hchoices : (Value.object o).member? "choices" = some (.array items) := hitems
  obtain ⟨x, hx⟩ := exists_error_of_mem_mapM hmem (Choice.exists_error_of_hasNullDefault hv)
  have hdecode : decodeChoices (.array items) = .error x := hx
  simp only [ofObject?, filter_error_eq_none herror, hchoices, hdecode]

/-- Choices that differ in nulls that may also be absent decode alike. -/
theorem decodeChoices_of_forall₂ {items items' : List Value}
    (h : List.Forall₂ (SameOr Choice.WithoutNulls) items items')
    (hnull : ∀ v ∈ items, ¬Choice.HasNullDefault v) :
    decodeChoices (.array items') = decodeChoices (.array items) := by
  refine mapM_eq_of_forall₂ ?_
  induction h with
  | nil => exact .nil
  | cons hv _ ih =>
    have hrest := ih fun v hmem => hnull v (List.mem_cons_of_mem _ hmem)
    exact .cons (Choice.decode_of_sameOr hv (hnull _ List.mem_cons_self)) hrest

/-- No other null makes a difference. -/
theorem ofObject?_of_withoutNulls (data : List Char) (h : WithoutNulls o o')
    (hread : ReportsError o ∨ ¬HasNullDefault o) :
    ofObject? data (.object o') = ofObject? data (.object o) := by
  have hkey (key : String) (hne : key ≠ "choices") :
      (Value.object o').member? key = (Value.object o).member? key :=
    h.get?_eq key id fun _ _ hat => hne hat.1
  rcases hread with ⟨error, herror, hnull⟩ | hnull
  · have herror' : Table.get? o' "error" = some error := (hkey "error" (by decide)).trans herror
    rw [ofObject?_of_error _ herror hnull, ofObject?_of_error _ herror' hnull]
  · rcases h "choices" with hsame | ⟨hmay, -, -⟩ | ⟨v, v', hv, hv', -, hinside⟩
    · have hchoices : (Value.object o').member? "choices" = (Value.object o).member? "choices" :=
        hsame
      simp only [ofObject?, hkey "error" (by decide), hkey "text" (by decide), hchoices]
    · exact hmay.elim
    · cases hinside with
      | @array items items' hitems =>
        have hdecode := decodeChoices_of_forall₂ hitems fun v hmem hdefault =>
          hnull ⟨items, hv, v, hmem, hdefault⟩
        have hchoices : (Value.object o).member? "choices" = some (.array items) := hv
        have hchoices' : (Value.object o').member? "choices" = some (.array items') := hv'
        simp only [ofObject?, hkey "error" (by decide), hchoices, hchoices']
        cases ((Value.object o).member? "error").filter (!·.isNull) with
        | some error => rfl
        | none => simp only [hdecode]

/-- The text of a chunk matters only where it is left unread. -/
theorem ofObject?_eq_of_understood {data : List Char} {v : Value}
    (h : ∀ d, ofObject? data v = some d → d.pending = false) (data' : List Char) :
    ofObject? data' v = ofObject? data v := by
  unfold ofObject? at h ⊢
  split
  · rfl
  · next choices _ hchoices =>
    cases hdecode : decodeChoices choices with
    | ok cs => rfl
    | error x =>
      exfalso
      simp only [*] at h
      exact nomatch h _ rfl
  · rfl

/-- A frame of a chunk, and a frame of the same chunk without some of its nulls. If the second can
be understood, both are read alike exactly if an error is reported or no null stands where a value
may only be absent. If the first can be understood, both are read alike. With a null where a value
may only be absent, and no error, the first is left unread. -/
theorem ofFrame?_withoutNulls_iff {raw raw' : List UInt8} (h : HoldsObject raw o)
    (h' : HoldsObject raw' o') (hnulls : WithoutNulls o o') :
    (IsUnderstood raw' →
      (ofFrame? raw = ofFrame? raw' ↔ ReportsError o ∨ ¬HasNullDefault o)) ∧
    (IsUnderstood raw → ofFrame? raw = ofFrame? raw') ∧
    (¬ReportsError o → HasNullDefault o →
      ofFrame? raw = some (.unread (dataOf (Text.trim (Text.decode raw))))) := by
  have hunread (herror : ¬ReportsError o) (hnull : HasNullDefault o) :
      ofFrame? raw = some (.unread (dataOf (Text.trim (Text.decode raw)))) := by
    rw [h.ofFrame?_eq, ofObject?_of_hasNullDefault _ herror hnull]
  -- Where no null may only be absent both frames are read as the first chunk.
  have hsame (hread : ReportsError o ∨ ¬HasNullDefault o)
      (hunderstood : IsUnderstood raw ∨ IsUnderstood raw') : ofFrame? raw = ofFrame? raw' := by
    have hfirst := h.ofFrame?_eq
    have hsecond := h'.ofFrame?_eq
    rw [ofObject?_of_withoutNulls _ hnulls hread] at hsecond
    rw [hfirst, hsecond]
    rcases hunderstood with hraw | hraw
    · unfold IsUnderstood at hraw
      rw [hfirst] at hraw
      exact (ofObject?_eq_of_understood hraw _).symm
    · unfold IsUnderstood at hraw
      rw [hsecond] at hraw
      exact ofObject?_eq_of_understood hraw _
  have hread (hraw : IsUnderstood raw) : ReportsError o ∨ ¬HasNullDefault o := by
    by_contra hnot
    rw [not_or, not_not] at hnot
    exact nomatch hraw _ (hunread hnot.1 hnot.2)
  refine ⟨fun hraw' => ⟨fun heq => hread ?_, fun hread => hsame hread (.inr hraw')⟩,
    fun hraw => hsame (hread hraw) (.inl hraw), hunread⟩
  intro d hd
  exact hraw' d (heq ▸ hd)

/-- The text of a chunk with one choice. -/
def textOfChoice (choice : String) : String := "\x7b\"choices\":[" ++ choice ++ "]\x7d"

/-- A chunk with one part of a tool call. -/
def callChunk (part : Object) : Object :=
  [("choices", .array [.object [("delta", .object [("tool_calls", .array [.object part])])]])]

/-- A chunk with a part of a tool call is without nulls if the part is. -/
theorem withoutNulls_callChunk {part part' : Object} (h : ToolCallPart.WithoutNulls part part') :
    WithoutNulls (callChunk part) (callChunk part') := by
  have hadded : Addition.WithoutNulls [("tool_calls", .array [.object part])]
      [("tool_calls", .array [.object part'])] :=
    Json.dropsNulls_set "tool_calls" rfl ⟨rfl, .array (.cons (.object h) .nil)⟩
  have hchoice : Choice.WithoutNulls [("delta", .object [("tool_calls", .array [.object part])])]
      [("delta", .object [("tool_calls", .array [.object part'])])] :=
    Json.dropsNulls_set "delta" rfl ⟨rfl, .object hadded⟩
  exact Json.dropsNulls_set "choices" rfl ⟨rfl, .array (.cons (.object hchoice) .nil)⟩

/-- Such a chunk has no null that may only be absent. -/
theorem not_hasNullDefault_callChunk (part : Object) : ¬HasNullDefault (callChunk part) := by
  rintro ⟨items, hitems, v, hv, hdefault⟩
  cases hitems
  cases List.mem_singleton.1 hv
  rcases hdefault with hdelta | ⟨d, hd, hcalls⟩
  · exact nomatch hdelta
  · cases hd
    exact nomatch hcalls

/-- The chunk is read in what it is written as, if its part is. -/
theorem parse?_render_callChunk {part : Object} (h : Json.ReadsBack 122 (.object part)) :
    Value.parse? (Value.object (callChunk part)).render = some (.object (callChunk part)) := by
  have hmember {depth : Nat} {v : Value} (key : String) (hv : Json.ReadsBack depth v) :
      ∀ m ∈ [(key, v)], Json.ReadsBack depth m.2 := List.forall_mem_singleton.2 hv
  have hcalls : Json.ReadsBack 123 (.array [.object part]) :=
    Json.readsBack_array (List.forall_mem_singleton.2 h)
  have hadded : Json.ReadsBack 124 (.object [("tool_calls", .array [.object part])]) :=
    Json.readsBack_object (List.pairwise_singleton _ _) (hmember _ hcalls)
  have hchoice := Json.readsBack_object (List.pairwise_singleton _ _) (hmember "delta" hadded)
  have hchoices := Json.readsBack_array (List.forall_mem_singleton.2 hchoice)
  exact Json.parse?_render_object rfl (List.pairwise_singleton _ _) (hmember "choices" hchoices)

/-- A part of a tool call that has no id. -/
def namePart : Object := [("function", .object [("name", .string "f")])]

/-- The same part with an id that is null. -/
def namePartOfNull : Object := [("function", .object [("name", .string "f")]), ("id", .null)]

theorem readsBack_named (depth : Nat) :
    Json.ReadsBack (depth + 1) (.object [("name", .string "f")]) :=
  Json.readsBack_object (List.pairwise_singleton _ _)
    (List.forall_mem_singleton.2 (Json.readsAs_string depth "f"))

theorem readsBack_namePart : Json.ReadsBack 122 (.object namePart) :=
  Json.readsBack_object (List.pairwise_singleton _ _)
    (List.forall_mem_singleton.2 (readsBack_named 120))

theorem readsBack_namePartOfNull : Json.ReadsBack 122 (.object namePartOfNull) := by
  apply Json.readsBack_object
  · exact List.pairwise_pair.2 (by decide)
  · exact List.forall_mem_cons.2 ⟨readsBack_named 120,
      List.forall_mem_singleton.2 (Json.readsAs_null 121)⟩

/-- The text of a chunk with the first of them. -/
def nameText : String :=
  textOfChoice ("\x7b\"delta\":\x7b\"tool_calls\":" ++
    "[\x7b\"function\":\x7b\"name\":\"f\"\x7d\x7d]\x7d\x7d")

/-- The text of a chunk with the second. -/
def nameTextOfNull : String :=
  textOfChoice ("\x7b\"delta\":\x7b\"tool_calls\":" ++
    "[\x7b\"function\":\x7b\"name\":\"f\"\x7d,\"id\":null\x7d]\x7d\x7d")

/-- Both chunks are read alike. -/
theorem ofFrame?_withoutNulls_iff_name :
    IsUnderstood (Text.utf8 nameText.toList) ∧
      ofFrame? (Text.utf8 nameTextOfNull.toList) = ofFrame? (Text.utf8 nameText.toList) := by
  have htext : (Value.object (callChunk namePart)).render = nameText.toList := by decide +kernel
  have htextOfNull : (Value.object (callChunk namePartOfNull)).render = nameTextOfNull.toList := by
    decide +kernel
  have hparse := parse?_render_callChunk readsBack_namePart
  have hparseOfNull := parse?_render_callChunk readsBack_namePartOfNull
  rw [htext] at hparse
  rw [htextOfNull] at hparseOfNull
  have hnone := holdsObject_of_text (by decide +kernel) (by decide +kernel) hparse
  have hnull := holdsObject_of_text (by decide +kernel) (by decide +kernel) hparseOfNull
  have hcall : ofFrame? (Text.utf8 nameText.toList) =
      some (.on .toolCalls "\x7b\"id\":\"\",\"function\":\"f\",\"arguments\":".toList) := by
    decide +kernel
  have hread : IsUnderstood (Text.utf8 nameText.toList) := by
    intro d hd
    rw [hcall] at hd
    cases hd
    rfl
  have hpart : ToolCallPart.WithoutNulls namePartOfNull namePart :=
    Json.dropsNulls_remove "id" (by decide) rfl
  have hiff := (ofFrame?_withoutNulls_iff hnull hnone (withoutNulls_callChunk hpart)).1 hread
  exact ⟨hread, hiff.2 (.inr (not_hasNullDefault_callChunk namePartOfNull))⟩

/-- The text of a chunk with tool calls that are null beside a text. -/
def nullCallsText : String :=
  textOfChoice "\x7b\"delta\":\x7b\"content\":\"Hi\",\"tool_calls\":null\x7d\x7d"

/-- The text of a chunk that ends a reply and adds null. -/
def nullDeltaText : String :=
  textOfChoice "\x7b\"delta\":null,\"finish_reason\":\"stop\"\x7d"

/-- Tool calls that are null leave a frame unread that without them brings a text, and so does a
null in place of what is added in a frame that otherwise ends the reply. -/
theorem unread_of_null :
    ofFrame? (Text.utf8 nullCallsText.toList) = some (.unread nullCallsText.toList) ∧
      ofFrame? (Text.utf8
          (textOfChoice "\x7b\"delta\":\x7b\"content\":\"Hi\"\x7d\x7d").toList) =
        some (.on .text "Hi".toList) ∧
      ofFrame? (Text.utf8 nullDeltaText.toList) = some (.unread nullDeltaText.toList) ∧
      ofFrame? (Text.utf8 (textOfChoice "\x7b\"finish_reason\":\"stop\"\x7d").toList) =
        some (.last []) := by
  refine ⟨by decide +kernel, by decide +kernel, by decide +kernel, by decide +kernel⟩

end Delta

end ChatRelay
