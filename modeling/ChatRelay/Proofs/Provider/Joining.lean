import ChatRelay.Proofs.Json.Blanks
import ChatRelay.Proofs.Reply.Reading
import ChatRelay.Proofs.Text.Utf8

/-!
# Frames that are read together with text before them

What a frame carries is the mark at the end of a stream or a JSON object (`Delta.IsWhole`), and
neither completes a text that has begun before it. A frame that can be read on its own is therefore
read as the same delta or not at all when any text stands before it (`Delta.eq_of_joined`).
-/

namespace ChatRelay

open Json (Value Tree)
open Json.Reader (isSpace)

namespace Delta

/-! ### Data that can be read -/

/-- The data of a frame that can be read: the mark at the end of a stream, or a JSON object. -/
def IsWhole (data : List Char) : Prop :=
  data = "[DONE]".toList ∨ ∃ o, Value.parse? data = some (.object o)

/-- What is read as an object is one. -/
theorem exists_object_of_parse? {data : List Char} {o : Json.Object}
    (h : Value.parse? data = some (.object o)) : ∃ ms, Tree.parse? data = some (.object ms) := by
  obtain ⟨t, ht, hvalue⟩ := Option.bind_eq_some_iff.1 h
  unfold Value.ofTree? at hvalue
  cases t with
  | object ms => exact ⟨ms, ht⟩
  | null | bool => exact nomatch hvalue
  | number l =>
    obtain ⟨n, -, hn⟩ := Option.map_eq_some_iff.1 hvalue
    exact nomatch hn
  | string ps =>
    obtain ⟨s, -, hs⟩ := Option.map_eq_some_iff.1 hvalue
    exact nomatch hs
  | array items =>
    obtain ⟨vs, -, hvs⟩ := Option.map_eq_some_iff.1 hvalue
    exact nomatch hvs

/-- The mark at the end of a stream is no JSON text. -/
theorem ne_doneMark_of_parse? {data : List Char} {v : Value} (h : Value.parse? data = some v) :
    data ≠ "[DONE]".toList := by
  rintro rfl
  exact nomatch h

/-- Data that is an object is read as the object. -/
theorem ofData?_of_object {data : List Char} {o : Json.Object}
    (h : Value.parse? data = some (.object o)) : ofData? data = ofObject? data (.object o) := by
  have hne : data.isEmpty = false := by
    cases data with
    | nil => exact nomatch h
    | cons => rfl
  simp only [ofData?, hne, ne_doneMark_of_parse? h, h, Bool.false_eq_true, if_false]

/-- Data that are not left unread can be read. -/
theorem isWhole_of_ofData? {data : List Char} (hne : data ≠ [])
    (h : ∀ d, ofData? data = some d → d.pending = false) : IsWhole data := by
  unfold ofData? at h
  rw [if_neg (by simpa using hne)] at h
  by_cases hdone : data = "[DONE]".toList
  · exact .inl hdone
  rw [if_neg hdone] at h
  cases hvalue : Value.parse? data with
  | none =>
    rw [hvalue] at h
    exact nomatch h _ rfl
  | some v =>
    cases v with
    | object o => exact .inr ⟨o, hvalue⟩
    | _ =>
      rw [hvalue] at h
      exact nomatch h _ rfl

/-- An error that an object reports is all that is read of it. -/
theorem ofObject?_of_error (data : List Char) {o : Json.Object} {error : Value}
    (h : Table.get? o "error" = some error) (hnull : error.isNull = false) :
    ofObject? data (.object o) = some (.on .error (Provider.errorText error)) := by
  have hfound : ((Value.object o).member? "error").filter (!·.isNull) = some error := by
    rw [Value.member?, h, Option.filter, hnull]
    rfl
  simp only [ofObject?, hfound]

variable {c : Char} {data a : List Char}

/-- What is not blank is no space of JSON. -/
theorem isSpace_of_isBlank_eq_false (h : Text.isBlank c = false) : isSpace c = false := by
  refine Bool.eq_false_iff.2 fun hspace => ?_
  rw [Json.Reader.isBlank_of_isSpace hspace] at h
  exact nomatch h

/-- Data that can be read begin with a bracket. -/
theorem IsWhole.exists_bracket (h : IsWhole data)
    (hhead : ∀ c ∈ data.head?, Text.isBlank c = false) :
    ∃ b text, data = b :: text ∧ (b = '[' ∨ b = '{') := by
  rcases h with rfl | ⟨o, ho⟩
  · exact ⟨'[', _, rfl, .inl rfl⟩
  · obtain ⟨ms, hms⟩ := exists_object_of_parse? ho
    cases data with
    | nil => exact nomatch hms
    | cons c text =>
      have hspace := isSpace_of_isBlank_eq_false (hhead c rfl)
      exact ⟨c, text, rfl, Json.bracket_of_parse?_object hspace hms⟩

/-- Data that can be read complete nothing that has begun before them. -/
theorem IsWhole.not_isWhole_append (h : IsWhole data)
    (hhead : ∀ c ∈ data.head?, Text.isBlank c = false) (hc : Text.isBlank c = false) :
    ¬IsWhole (c :: a ++ data) := by
  obtain ⟨b, text, hdata, hb⟩ := h.exists_bracket hhead
  have hspace := isSpace_of_isBlank_eq_false hc
  rintro (hdone | ⟨o, ho⟩)
  · -- A bracket stands only at the beginning of the mark.
    have htail : a ++ b :: text = ['D', 'O', 'N', 'E', ']'] := by
      rw [hdata] at hdone
      exact (List.cons.inj hdone).2
    have hmem : b ∈ ['D', 'O', 'N', 'E', ']'] := htail ▸ List.mem_append_right a List.mem_cons_self
    rcases hb with rfl | rfl <;> exact absurd hmem (by decide)
  · obtain ⟨ms, hms⟩ := exists_object_of_parse? ho
    rcases h with rfl | ⟨o', ho'⟩
    · rw [Json.parse?_append_doneMark hspace] at hms
      exact nomatch hms
    · obtain ⟨ns, hns⟩ := exists_object_of_parse? ho'
      subst hdata
      rw [Json.parse?_append_eq_none hspace hb hns] at hms
      exact nomatch hms

/-! ### Lines -/

/-- The data of a line that says so is what follows, without leading blanks. -/
theorem dataOf_eq_of_after? {line rest : List Char} (h : line = "data:".toList ++ rest) :
    dataOf line = Text.trimStart rest := by
  rw [dataOf, Text.after?_eq_some_iff.2 h]
  rfl

/-- The data of a line is an end of it. -/
theorem dataOf_isSuffix (line : List Char) : dataOf line <:+ line := by
  unfold dataOf
  cases h : Text.after? "data:".toList line with
  | none => exact List.suffix_refl _
  | some rest =>
    have hrest : rest <:+ line := ⟨_, (Text.after?_eq_some_iff.1 h).symm⟩
    exact (Text.trimStart_isSuffix rest).trans hrest

/-- The data of a line that begins with no blank do not begin with one. -/
theorem isBlank_head?_dataOf {line : List Char} (h : ∀ c ∈ line.head?, Text.isBlank c = false) :
    ∀ c ∈ (dataOf line).head?, Text.isBlank c = false := by
  unfold dataOf
  cases Text.after? "data:".toList line with
  | none => exact h
  | some rest => exact Text.isBlank_head?_trimStart rest

/-- A line that begins with a bracket is its own data. -/
theorem dataOf_bracket {b : Char} {text : List Char} (hb : b = '[' ∨ b = '{') :
    dataOf (b :: text) = b :: text ∧ isControlLine (b :: text) = false := by
  rcases hb with rfl | rfl <;> exact ⟨rfl, rfl⟩

/-- The delta of a line. -/
def ofLine? (line : List Char) : Option Delta :=
  if isControlLine line then none else ofData? (dataOf line)

/-- A frame is read as the line that it is, without blanks around it. -/
theorem ofFrame?_eq (raw : List UInt8) : ofFrame? raw = ofLine? (Text.trim (Text.decode raw)) := rfl

/-- The data of a frame are an object. -/
structure HoldsObject (raw : List UInt8) (o : Json.Object) : Prop where
  carriesData : isControlLine (Text.trim (Text.decode raw)) = false
  parses : Value.parse? (dataOf (Text.trim (Text.decode raw))) = some (.object o)

/-- A text that holds an object is a frame of it. -/
theorem holdsObject_of_text {text : List Char} {o : Json.Object}
    (hline : isControlLine (Text.trim (Text.decode (Text.utf8 text))) = false)
    (hdata : dataOf (Text.trim (Text.decode (Text.utf8 text))) = text)
    (hparse : Value.parse? text = some (.object o)) : HoldsObject (Text.utf8 text) o :=
  ⟨hline, by rw [hdata, hparse]⟩

/-- Such a frame is read as its object. -/
theorem HoldsObject.ofFrame?_eq {raw : List UInt8} {o : Json.Object} (h : HoldsObject raw o) :
    ofFrame? raw = ofObject? (dataOf (Text.trim (Text.decode raw))) (.object o) := by
  rw [Delta.ofFrame?_eq, ofLine?, h.carriesData, if_neg Bool.false_ne_true,
    ofData?_of_object h.parses]

/-- A line that can be read has data that can be read. -/
theorem isWhole_of_ofLine? {line : List Char} {d : Delta} (h : ofLine? line = some d)
    (hd : d.pending = false) : IsWhole (dataOf line) ∧ ofData? (dataOf line) = some d := by
  unfold ofLine? at h
  split at h
  · exact nomatch h
  · have hne : dataOf line ≠ [] := fun hnil => by
      rw [hnil] at h
      cases h
    refine ⟨isWhole_of_ofData? hne fun d' hd' => ?_, h⟩
    rw [h] at hd'
    cases hd'
    exact hd

/-- A line whose data can be read begins with the field name or a bracket. -/
theorem IsWhole.mem_of_line {text : List Char} (h : IsWhole (dataOf (c :: text)))
    (hc : Text.isBlank c = false) : c ∈ ['d', '[', '{'] := by
  have hhead : ∀ e ∈ (c :: text).head?, Text.isBlank e = false := by
    rintro e ⟨⟩
    exact hc
  unfold dataOf at h
  cases hafter : Text.after? "data:".toList (c :: text) with
  | some rest =>
    have hline : c :: text = 'd' :: (['a', 't', 'a', ':'] ++ rest) :=
      Text.after?_eq_some_iff.1 hafter
    rw [(List.cons.inj hline).1]
    exact List.mem_cons_self
  | none =>
    rw [hafter] at h
    obtain ⟨b, rest, hline, hb⟩ := h.exists_bracket hhead
    rw [(List.cons.inj hline).1]
    rcases hb with rfl | rfl <;> decide

/-! ### Joined lines -/

/-- The field name is not cut by a line that can be read: it lies in the text before it. -/
theorem exists_eq_of_field {blanks line rest : List Char} (hblanks : Text.isAllBlank blanks = true)
    (hhead : ∀ e ∈ line.head?, Text.isBlank e = false) (hwhole : IsWhole (dataOf line))
    (h : c :: a ++ (blanks ++ line) = "data:".toList ++ rest) :
    ∃ q, c :: a = "data:".toList ++ q ∧ rest = q ++ (blanks ++ line) := by
  rcases List.append_eq_append_iff.1 h with ⟨q, hfield, hrest⟩ | ⟨q, htext, hrest⟩
  · cases q with
    | nil => exact ⟨[], by simpa using hfield.symm, by simpa using hrest.symm⟩
    | cons w q =>
      -- The line would begin inside of the field name.
      exfalso
      have htail : a ++ w :: q = ['a', 't', 'a', ':'] := (List.cons.inj hfield).2.symm
      have hw : w ∈ ['a', 't', 'a', ':'] := htail ▸ List.mem_append_right a List.mem_cons_self
      have hnot : Text.isBlank w = false ∧ w ∉ ['d', '[', '{'] := by
        simp only [List.mem_cons, List.not_mem_nil, or_false] at hw
        rcases hw with rfl | rfl | rfl | rfl <;> decide
      cases blanks with
      | nil =>
        rw [List.nil_append] at hrest
        subst hrest
        exact hnot.2 (hwhole.mem_of_line hnot.1)
      | cons e blanks =>
        have he : e = w := (List.cons.inj hrest).1
        rw [Text.isAllBlank, List.all_cons, he, hnot.1] at hblanks
        cases hblanks
  · exact ⟨q, htext, hrest⟩

/-- A line that can be read is read as the same delta or not at all after any other text. -/
theorem ofLine?_eq_of_append {blanks line : List Char} {d d' : Delta} (hc : Text.isBlank c = false)
    (hblanks : Text.isAllBlank blanks = true) (hhead : ∀ e ∈ line.head?, Text.isBlank e = false)
    (h : ofLine? line = some d) (hd : d.pending = false)
    (h' : ofLine? (c :: a ++ (blanks ++ line)) = some d') (hd' : d'.pending = false) : d' = d := by
  obtain ⟨hwhole, hdata⟩ := isWhole_of_ofLine? h hd
  obtain ⟨hwhole', hdata'⟩ := isWhole_of_ofLine? h' hd'
  obtain ⟨name, hname⟩ := dataOf_isSuffix line
  have hdataHead := isBlank_head?_dataOf hhead
  -- Nothing that has begun is completed by the data.
  have hnot (e : Char) (he : Text.isBlank e = false) (b : List Char) :
      ¬IsWhole (e :: b ++ (blanks ++ line)) := by
    have hsplit : e :: b ++ (blanks ++ line) = e :: (b ++ blanks ++ name) ++ dataOf line :=
      calc e :: b ++ (blanks ++ line) = e :: b ++ (blanks ++ (name ++ dataOf line)) := by rw [hname]
        _ = e :: (b ++ blanks ++ name) ++ dataOf line := by simp
    rw [hsplit]
    exact hwhole.not_isWhole_append hdataHead he
  cases hafter : Text.after? "data:".toList (c :: a ++ (blanks ++ line)) with
  | none =>
    have hself : dataOf (c :: a ++ (blanks ++ line)) = c :: a ++ (blanks ++ line) := by
      rw [dataOf, hafter]
      rfl
    rw [hself] at hwhole'
    exact absurd hwhole' (hnot c hc a)
  | some rest =>
    have hline := Text.after?_eq_some_iff.1 hafter
    obtain ⟨q, -, hrest⟩ := exists_eq_of_field hblanks hhead hwhole hline
    rw [dataOf_eq_of_after? hline, hrest] at hwhole' hdata'
    cases hq : Text.isAllBlank q with
    | true =>
      -- Nothing but the field name stands before the line, which is then its own data.
      have hself : Text.trimStart (q ++ (blanks ++ line)) = line := by
        rw [Text.trimStart_append_of_blank hq, Text.trimStart_append_of_blank hblanks,
          Text.trimStart_eq_self hhead]
      rw [hself] at hwhole' hdata'
      obtain ⟨b, text, rfl, hb⟩ := hwhole'.exists_bracket hhead
      rw [(dataOf_bracket hb).1, hdata'] at hdata
      exact Option.some.inj hdata
    | false =>
      rw [Text.trimStart_append hq] at hwhole'
      have hqhead := Text.isBlank_head?_trimStart q
      cases hqs : Text.trimStart q with
      | nil =>
        rw [Text.trimStart, Text.dropWhile_isBlank_eq_nil_iff, hq] at hqs
        cases hqs
      | cons e b =>
        rw [hqs] at hwhole' hqhead
        exact absurd hwhole' (hnot e (hqhead e rfl) b)

/-- A frame that can be read is read as the same delta or not at all after any text. -/
theorem eq_of_joined {p : List Char} {raw : List UInt8} {d d' : Delta} (h : ofFrame? raw = some d)
    (hd : d.pending = false) (h' : ofFrame? (Text.utf8 p ++ raw) = some d')
    (hd' : d'.pending = false) : d' = d := by
  rw [ofFrame?_eq] at h
  rw [ofFrame?_eq, Text.decode_utf8_append] at h'
  cases hp : Text.isAllBlank p with
  | true =>
    rw [Text.trim_append_of_blank_left hp, h] at h'
    exact (Option.some.inj h').symm
  | false =>
    have hraw : Text.isAllBlank (Text.decode raw) = false := by
      refine Bool.eq_false_iff.2 fun hblank => ?_
      rw [(Text.trim_eq_nil_iff _).2 hblank] at h
      cases h
    obtain ⟨blanks, hblanks, hend⟩ := Text.exists_trimEnd_eq hraw
    have hstart := Text.isBlank_head?_trimStart p
    rw [Text.trim_append hp hraw, hend] at h'
    cases hps : Text.trimStart p with
    | nil =>
      rw [Text.trimStart, Text.dropWhile_isBlank_eq_nil_iff, hp] at hps
      cases hps
    | cons c a =>
      rw [hps] at h' hstart
      exact ofLine?_eq_of_append (hstart c rfl) hblanks (Text.isBlank_head?_trim _) h hd h' hd'

end Delta

end ChatRelay
