import ChatRelay.Proofs.Provider.Joining

/-!
# Frames that are cut in two

The first part of a frame that was cut is kept as text: without the blanks at its ends, without the
field name, and with replacements for the bytes of an unfinished character. A frame is read from
this text and the rest of its bytes just as it is read whole (`Delta.ofFrame?_of_cleanCut`),
provided that the cut goes through no character and is not made behind a blank of a string
(`Delta.CleanCut`).
-/

namespace ChatRelay.Text

/-- A word without blanks is begun before a blank and not after it. -/
theorem isSome_after?_append_blank {word s rest : List Char} {c : Char}
    (hword : word.any isBlank = false) (hc : isBlank c = true) :
    (after? word (s ++ c :: rest)).isSome = (after? word s).isSome := by
  induction word generalizing s with
  | nil => simp [after?]
  | cons w word ih =>
    obtain ⟨hw, hword⟩ := Bool.or_eq_false_iff.1 hword
    cases s with
    | nil =>
      have hne : w ≠ c := by
        rintro rfl
        rw [hc] at hw
        exact nomatch hw
      simp [after?, hne]
    | cons d s =>
      rw [List.cons_append, after?, after?]
      by_cases hd : w = d
      · rw [if_pos hd, if_pos hd]
        exact ih hword
      · rw [if_neg hd, if_neg hd]

end ChatRelay.Text

namespace ChatRelay

open Json (Value Tree EndsInString)

namespace Delta

open Provider

variable {c : Char} {line data x blanks rest : List Char} {d : Delta}

/-! ### What is kept of a part -/

/-- What is left unread of a line is its data. -/
theorem text_of_ofLine?_pending (h : ofLine? line = some d) (hd : d.pending = true) :
    d.text = dataOf line ∧ dataOf line ≠ [] ∧ isControlLine line = false := by
  unfold ofLine? at h
  split at h
  · exact nomatch h
  next hcontrol =>
  refine ⟨?_, ?_, Bool.eq_false_iff.2 hcontrol⟩
  · unfold ofData? at h
    split at h
    · exact nomatch h
    split at h
    · cases h
      exact nomatch hd
    split at h
    · exact text_of_object_pending h hd
    · cases h
      rfl
  · intro hnil
    rw [hnil] at h
    exact nomatch h

/-! ### Blanks that are not kept -/

/-- What an object says does not hang on the text it was read from, unless that is left unread. -/
theorem ofObject?_congr (data data' : List Char) (v : Value) :
    ofObject? data' v = ofObject? data v ∨ ofObject? data v = some (.unread data) := by
  unfold ofObject?
  split
  · exact .inl rfl
  · split
    · exact .inl rfl
    · exact .inr rfl
  · exact .inl rfl

/-- Blanks in the data that do not lie in a string say nothing. -/
theorem ofData?_skip (hx : ∀ c ∈ x.head?, Text.isBlank c = false) (hne : x ≠ [])
    (hblanks : Text.isAllBlank blanks = true) (hstring : EndsInString x → blanks = [])
    (hrest : rest ≠ []) (h : ∀ e, ofData? (x ++ (blanks ++ rest)) = some e → e.pending = false) :
    ofData? (x ++ rest) = ofData? (x ++ (blanks ++ rest)) := by
  by_cases hnil : blanks = []
  · rw [hnil, List.nil_append]
  obtain ⟨c, a, rfl⟩ := List.exists_cons_of_ne_nil hne
  have hspace := isSpace_of_isBlank_eq_false (hx c rfl)
  have hdata : c :: a ++ (blanks ++ rest) ≠ [] := List.cons_ne_nil c _
  rcases isWhole_of_ofData? hdata h with hdone | ⟨o, ho⟩
  · -- No blank stands in the mark.
    obtain ⟨e, blanks, rfl⟩ := List.exists_cons_of_ne_nil hnil
    have hmem : e ∈ ['[', 'D', 'O', 'N', 'E', ']'] := by
      have hparts : e ∈ c :: a ++ (e :: blanks ++ rest) := by simp
      rwa [hdone] at hparts
    have he : Text.isBlank e = true := (Bool.and_eq_true_iff.1 hblanks).1
    simp only [List.mem_cons, List.not_mem_nil, or_false] at hmem
    rcases hmem with rfl | rfl | rfl | rfl | rfl | rfl <;> exact nomatch he
  · obtain ⟨t, ht, hvalue⟩ := Option.bind_eq_some_iff.1 ho
    have hskip : Tree.parse? (c :: a ++ rest) = some t := by
      refine Json.parse?_skip hspace (fun h => hnil (hstring h)) hblanks hrest ?_
      rw [List.append_assoc]
      exact ht
    have ho' : Value.parse? (c :: a ++ rest) = some (.object o) :=
      Option.bind_eq_some_iff.2 ⟨t, hskip, hvalue⟩
    rw [ofData?_of_object ho']
    rw [ofData?_of_object ho] at h ⊢
    rcases ofObject?_congr (c :: a ++ (blanks ++ rest)) (c :: a ++ rest) (.object o) with
      heq | hunread
    · exact heq
    · exact nomatch h _ hunread

/-! ### Lines that are cut -/

/-- A line that goes on after a blank has no field name and is no control line if it was not before.
-/
theorem ofLine?_append_blank {q : List Char} (hcontrol : isControlLine line = false)
    (hline : line ≠ []) (hc : Text.isBlank c = true) (hq : Text.after? "data:".toList line = none) :
    ofLine? (line ++ c :: q) = ofData? (line ++ c :: q) := by
  have hdata : "data:".toList.any Text.isBlank = false := rfl
  have hevent : "event:".toList.any Text.isBlank = false := rfl
  have hfield : Text.after? "data:".toList (line ++ c :: q) = none := by
    rw [← Option.isSome_eq_false_iff.trans Option.isNone_iff_eq_none,
      Text.isSome_after?_append_blank hdata hc, hq]
    rfl
  have hfirst : (line ++ c :: q).head? = line.head? := by
    cases line with
    | nil => exact absurd rfl hline
    | cons => rfl
  have hcontrol' : isControlLine (line ++ c :: q) = false := by
    rw [isControlLine, Text.isSome_after?_append_blank hevent hc, hfirst]
    exact hcontrol
  rw [ofLine?, hcontrol', if_neg Bool.false_ne_true, dataOf, hfield]
  rfl

/-- A line with the field name goes on with its data. -/
theorem ofLine?_append_of_field {q s : List Char} (hline : line = "data:".toList ++ q)
    (hdata : dataOf line ≠ []) : ofLine? (line ++ s) = ofData? (dataOf line ++ s) := by
  have hcontrol : isControlLine (line ++ s) = false := by
    rw [hline]
    rfl
  have hblank : Text.isAllBlank q = false := by
    refine Bool.eq_false_iff.2 fun hblank => hdata ?_
    rw [dataOf_eq_of_after? hline]
    exact (Text.dropWhile_isBlank_eq_nil_iff q).2 hblank
  have hjoined : line ++ s = "data:".toList ++ (q ++ s) := by
    rw [hline, List.append_assoc]
  rw [ofLine?, hcontrol, if_neg Bool.false_ne_true, dataOf_eq_of_after? hjoined,
    Text.trimStart_append hblank, dataOf_eq_of_after? hline]

/-- A line that is cut is read from the data of its first part and the rest. -/
theorem ofLine?_skip (h : ofLine? line = some d) (hd : d.pending = true)
    (hhead : ∀ c ∈ line.head?, Text.isBlank c = false) (hblanks : Text.isAllBlank blanks = true)
    (hstring : EndsInString (dataOf line) → blanks = []) (hrest : rest ≠ [])
    (hwhole : ∀ e, ofLine? (line ++ (blanks ++ rest)) = some e → e.pending = false) :
    ofLine? (dataOf line ++ rest) = ofLine? (line ++ (blanks ++ rest)) := by
  obtain ⟨-, hdata, hcontrol⟩ := text_of_ofLine?_pending h hd
  by_cases hself : blanks = [] ∧ dataOf line = line
  · rw [hself.1, hself.2, List.nil_append]
  have hjoined : ofLine? (line ++ (blanks ++ rest)) =
      ofData? (dataOf line ++ (blanks ++ rest)) := by
    cases hafter : Text.after? "data:".toList line with
    | some q => exact ofLine?_append_of_field (Text.after?_eq_some_iff.1 hafter) hdata
    | none =>
      have hline : dataOf line = line := by
        rw [dataOf, hafter]
        rfl
      rw [hline] at hself hdata ⊢
      obtain ⟨c, q, rfl⟩ := List.exists_cons_of_ne_nil fun hnil => hself ⟨hnil, rfl⟩
      exact ofLine?_append_blank hcontrol hdata (Bool.and_eq_true_iff.1 hblanks).1 hafter
  rw [hjoined] at hwhole ⊢
  have hdataHead := isBlank_head?_dataOf hhead
  rw [← ofData?_skip hdataHead hdata hblanks hstring hrest hwhole]
  -- The data begin with a bracket, so that they are their own line.
  obtain ⟨c, a, hcons⟩ := List.exists_cons_of_ne_nil hdata
  have hwholeHead : ∀ e ∈ (dataOf line ++ (blanks ++ rest)).head?, Text.isBlank e = false := by
    rw [hcons] at hdataHead ⊢
    exact hdataHead
  have hne : dataOf line ++ (blanks ++ rest) ≠ [] := by simp [hdata]
  obtain ⟨b, text, htext, hb⟩ := (isWhole_of_ofData? hne hwhole).exists_bracket hwholeHead
  rw [hcons] at htext ⊢
  obtain ⟨rfl, -⟩ := List.cons.inj htext
  rw [List.cons_append, ofLine?, (dataOf_bracket hb).2, (dataOf_bracket hb).1,
    if_neg Bool.false_ne_true]

/-- A frame is cut cleanly: between two characters, and not behind a blank of a string. -/
structure CleanCut (a b : List UInt8) : Prop where
  characters : Text.decode (a ++ b) = Text.decode a ++ Text.decode b
  strings : EndsInString (dataOf (Text.trim (Text.decode a))) →
    ∀ c ∈ (Text.decode a).getLast?, Text.isBlank c = false

/-- Behind no blank, nothing is trimmed at the end. -/
theorem eq_nil_of_getLast? {s trail : List Char}
    (h : ∀ c ∈ (s ++ trail).getLast?, Text.isBlank c = false)
    (htrail : Text.isAllBlank trail = true) : trail = [] := by
  by_cases hnil : trail = []
  · exact hnil
  have hlast : trail.getLast hnil ∈ (s ++ trail).getLast? := by
    rw [List.getLast?_append, List.getLast?_eq_some_getLast hnil]
    rfl
  have hblank : Text.isBlank (trail.getLast hnil) = true :=
    List.all_eq_true.1 htrail _ (List.getLast_mem hnil)
  rw [h _ hlast] at hblank
  exact nomatch hblank

/-- A frame that is cut cleanly is read from what is kept of its first part and the rest. -/
theorem ofFrame?_of_cleanCut {a b : List UInt8} (hcut : CleanCut a b) (h : ofFrame? a = some d)
    (hd : d.pending = true) (hwhole : ∀ e, ofFrame? (a ++ b) = some e → e.pending = false) :
    ofFrame? (Text.utf8 d.text ++ b) = ofFrame? (a ++ b) := by
  obtain ⟨hcharacters, hstrings⟩ := hcut
  rw [ofFrame?_eq, hcharacters] at hwhole
  rw [ofFrame?_eq, ofFrame?_eq, Text.decode_utf8_append, hcharacters]
  rw [ofFrame?_eq] at h
  generalize Text.decode a = s at *
  generalize Text.decode b = t at *
  obtain ⟨htext, hdata, -⟩ := text_of_ofLine?_pending h hd
  have hhead := Text.isBlank_head?_trim s
  have hs : Text.isAllBlank s = false := by
    refine Bool.eq_false_iff.2 fun hblank => hdata ?_
    rw [(Text.trim_eq_nil_iff s).2 hblank]
    rfl
  -- A blank rest would leave the frame as it was, which cannot be read.
  have ht : Text.isAllBlank t = false := by
    refine Bool.eq_false_iff.2 fun hblank => ?_
    rw [Text.trim_append_of_blank_right s hblank] at hwhole
    exact absurd (hd.symm.trans (hwhole d h)) Bool.noConfusion
  have hstart := Text.trimStart_eq_self (isBlank_head?_dataOf hhead)
  have hx : Text.isAllBlank (dataOf (Text.trim s)) = false := by
    refine Bool.eq_false_iff.2 fun hblank => hdata ?_
    rw [← hstart]
    exact (Text.dropWhile_isBlank_eq_nil_iff _).2 hblank
  have hrest : Text.trimEnd t ≠ [] := by
    obtain ⟨lead, -, hend⟩ := Text.exists_trimEnd_eq ht
    have hne : Text.trim t ≠ [] := fun hnil => by
      rw [(Text.trim_eq_nil_iff t).1 hnil] at ht
      exact nomatch ht
    rw [hend]
    exact List.append_ne_nil_of_right_ne_nil lead hne
  obtain ⟨trail, htrail, hsplit⟩ := Text.exists_eq_trimEnd_append (Text.trimStart s)
  rw [Text.trim_append hs ht, hsplit, List.append_assoc] at hwhole ⊢
  rw [htext, Text.trim_append hx ht, hstart]
  refine ofLine?_skip h hd hhead htrail (fun hin => ?_) hrest hwhole
  obtain ⟨lead, -, hlead⟩ := Text.exists_eq_append_trimStart s
  refine @eq_nil_of_getLast? (lead ++ Text.trim s) trail (fun c hc => hstrings hin c ?_) htrail
  rw [List.append_assoc] at hc
  rwa [hlead, hsplit]

end Delta

end ChatRelay
