import ChatRelay.Proofs.Transcript.Increments
import ChatRelay.Text.Blank

/-!
# Text between markers

A text that holds no marker (`Marker.Absent`) is found whole between the markers that are put around
it. The first character of a marker is a `<` and occurs in it only once, so text before a marker can
begin no other marker that reaches into it, and the first marker that is found is the one that was
put there.
-/

namespace ChatRelay

namespace Text

/-! ### Words in a text -/

/-- Nothing is after a word with which the text does not begin. -/
theorem after?_eq_none_iff {word s : List Char} : after? word s = none ↔ ¬word <+: s := by
  rw [Option.eq_none_iff_forall_ne_some]
  constructor
  · rintro h ⟨rest, hrest⟩
    exact h rest (after?_eq_some_iff.2 hrest.symm)
  · intro h rest hrest
    exact h ⟨rest, (after?_eq_some_iff.1 hrest).symm⟩

/-- A word is found exactly in the texts that hold it. -/
theorem cutAt?_eq_none_iff {word s : List Char} : cutAt? word s = none ↔ ¬word <:+: s := by
  induction s with
  | nil =>
    rw [cutAt?, Option.map_eq_none_iff, after?_eq_none_iff, List.prefix_nil, List.infix_nil]
  | cons c cs ih =>
    rw [cutAt?, List.infix_cons_iff, not_or, ← ih, ← after?_eq_none_iff]
    cases after? word (c :: cs) <;> simp

/-- A word that has its first character only there cannot begin in a text and end after the place
where that character follows the text. -/
theorem not_isPrefix_append_cons {c : Char} {cs x : List Char} (hc : c ∉ cs) (hne : x ≠ [])
    (hx : ¬c :: cs <+: x) (y : List Char) : ¬c :: cs <+: x ++ c :: y := by
  rintro ⟨r, hr⟩
  rw [List.append_eq_append_iff] at hr
  rcases hr with ⟨w, hw, -⟩ | ⟨w, hw, hrest⟩
  · exact hx ⟨w, hw.symm⟩
  · cases w with
    | nil => exact hx ⟨[], by simpa using hw⟩
    | cons d ws =>
      obtain ⟨a, x, rfl⟩ := List.exists_cons_of_ne_nil hne
      obtain ⟨rfl, -⟩ := List.cons.inj hrest
      rw [List.cons_append, List.cons.injEq] at hw
      exact hc (by rw [hw.2]; simp)

/-- Such a word is found where it follows a text that does not hold it. -/
theorem cutAt?_append_word {c : Char} {cs x : List Char} (hc : c ∉ cs) (hx : ¬c :: cs <:+: x)
    (y : List Char) : cutAt? (c :: cs) (x ++ (c :: cs ++ y)) = some (x, y) := by
  induction x with
  | nil =>
    have h : after? (c :: cs) (c :: (cs ++ y)) = some y := after?_eq_some_iff.2 rfl
    rw [List.nil_append, List.cons_append, cutAt?, h]
  | cons a x ih =>
    rw [List.infix_cons_iff, not_or] at hx
    have h : after? (c :: cs) (a :: (x ++ (c :: cs ++ y))) = none :=
      after?_eq_none_iff.2 (not_isPrefix_append_cons hc (List.cons_ne_nil a x) hx.1 (cs ++ y))
    rw [List.cons_append, cutAt?, h, ih hx.2]
    rfl

/-- A character that does not occur in a word brings the word about in no text that it stands
before. -/
theorem not_isInfix_cons {word s : List Char} {c : Char} (hword : word ≠ []) (hc : c ∉ word)
    (hs : ¬word <:+: s) : ¬word <:+: c :: s := by
  rw [List.infix_cons_iff, not_or]
  refine ⟨?_, hs⟩
  obtain ⟨d, ds, rfl⟩ := List.exists_cons_of_ne_nil hword
  rintro ⟨r, hr⟩
  obtain ⟨rfl, -⟩ := List.cons.inj hr
  exact hc List.mem_cons_self

/-- What stands before the word that is found does not hold the word. -/
theorem not_isInfix_of_cutAt? {word s before rest : List Char} (hword : word ≠ [])
    (h : cutAt? word s = some (before, rest)) : ¬word <:+: before := by
  intro hin
  cases hcut : cutAt? word before with
  | none => exact cutAt?_eq_none_iff.1 hcut hin
  | some p =>
    obtain ⟨x, y⟩ := p
    -- The word in `before` would have been found instead.
    have hfound := cutAt?_append hcut (word ++ rest)
    rw [← List.append_assoc, ← cutAt?_eq_some h, h] at hfound
    have hlen := congrArg List.length (Prod.mk.inj (Option.some.inj hfound)).2
    have := List.length_pos_iff.2 hword
    simp only [List.length_append] at hlen
    omega

/-! ### Blanks around a text -/

/-- A blank in front is trimmed away. -/
theorem trim_cons {c : Char} (hc : isBlank c = true) (s : List Char) : trim (c :: s) = trim s := by
  simp [trim, trimStart, hc]

/-- A blank at the end is trimmed away. -/
theorem trim_concat {c : Char} (hc : isBlank c = true) (s : List Char) :
    trim (s ++ [c]) = trim s := by
  rw [trim, trim, trimStart, trimStart, List.dropWhile_append]
  split
  · next h =>
    rw [List.isEmpty_iff.1 h, List.dropWhile_cons_of_pos hc]
    rfl
  · simp [trimEnd, hc]

end Text

namespace Marker

/-! ### Texts without markers -/

/-- No marker occurs in the text. -/
def Absent (s : List Char) : Prop :=
  ∀ m : Marker, ¬m.opening <:+: s ∧ ¬m.closing <:+: s

/-- No marker occurs exactly if the text can be cut at none. -/
theorem absent_iff {s : List Char} :
    Absent s ↔ (all.all fun m =>
      (Text.cutAt? m.opening s).isNone && (Text.cutAt? m.closing s).isNone) = true := by
  simp only [List.all_eq_true, Bool.and_eq_true, Option.isNone_iff_eq_none, Text.cutAt?_eq_none_iff]
  exact ⟨fun h m _ => h m, fun h m => h m (by cases m <;> decide)⟩

instance (s : List Char) : Decidable (Absent s) := decidable_of_iff' _ absent_iff

/-- No marker occurs in the empty text. -/
theorem absent_nil : Absent [] := by decide

/-- A character that occurs in no marker can stand before a text without markers. -/
theorem Absent.cons {c : Char} (hc : ∀ m : Marker, c ∉ m.opening ∧ c ∉ m.closing) {s : List Char}
    (h : Absent s) : Absent (c :: s) := by
  intro m
  exact ⟨Text.not_isInfix_cons (List.length_pos_iff.1 m.opening_length_pos) (hc m).1 (h m).1,
    Text.not_isInfix_cons (List.length_pos_iff.1 m.closing_length_pos) (hc m).2 (h m).2⟩

/-- Or after it. -/
theorem Absent.concat {c : Char} (hc : ∀ m : Marker, c ∉ m.opening ∧ c ∉ m.closing) {s : List Char}
    (h : Absent s) : Absent (s ++ [c]) := by
  have hword {w : List Char} (hw : w ≠ []) (hcw : c ∉ w) (hws : ¬w <:+: s) : ¬w <:+: s ++ [c] := by
    rw [List.infix_concat_iff, not_or, List.suffix_concat_iff]
    refine ⟨?_, hws⟩
    rintro (rfl | ⟨ds, rfl, -⟩)
    · exact hw rfl
    · exact hcw (by simp)
  intro m
  exact ⟨hword (List.length_pos_iff.1 m.opening_length_pos) (hc m).1 (h m).1,
    hword (List.length_pos_iff.1 m.closing_length_pos) (hc m).2 (h m).2⟩

/-- There is no newline in a marker. -/
theorem newline_not_mem (m : Marker) : '\n' ∉ m.opening ∧ '\n' ∉ m.closing := by
  cases m <;> decide

/-- There is no closing brace in a marker. -/
theorem brace_not_mem (m : Marker) : '\x7d' ∉ m.opening ∧ '\x7d' ∉ m.closing := by
  cases m <;> decide

/-! ### Finding the markers around a text -/

/-- Only the first character of a closing marker is a `<`. -/
theorem closing_eq_cons (m : Marker) : ∃ cs, m.closing = '<' :: cs ∧ '<' ∉ cs := by
  cases m
  · exact ⟨"/think>".toList, rfl, by decide⟩
  · exact ⟨"/tool>".toList, rfl, by decide⟩

/-- A closing marker ends with a `>`. -/
theorem closing_eq_concat (m : Marker) : ∃ cs, m.closing = cs ++ ['>'] := by
  cases m
  · exact ⟨"</think".toList, rfl⟩
  · exact ⟨"</tool".toList, rfl⟩

/-- A closing marker is found after a text without it. -/
theorem cutAt?_append_closing {m : Marker} {x : List Char} (hx : ¬m.closing <:+: x)
    (y : List Char) : Text.cutAt? m.closing (x ++ (m.closing ++ y)) = some (x, y) := by
  obtain ⟨cs, hcs, hnot⟩ := m.closing_eq_cons
  rw [hcs] at hx ⊢
  exact Text.cutAt?_append_word hnot hx y

/-- Where no opening marker is a beginning of a text, none is found at its beginning. -/
theorem openingAt?_eq_none {s : List Char} (h : ∀ m : Marker, ¬m.opening <+: s) :
    openingAt? s = none := by
  rw [Option.eq_none_iff_forall_ne_some]
  rintro ⟨m, rest⟩ hm
  exact h m ⟨rest, (openingAt?_eq_some hm).symm⟩

/-- No opening marker occurs in the text. -/
def Unopened (s : List Char) : Prop :=
  ∀ m : Marker, ¬m.opening <:+: s

/-- Where no marker occurs, no opening marker does. -/
theorem Absent.unopened {s : List Char} (h : Absent s) : Unopened s := fun m => (h m).1

/-- In a text without opening markers none is found. -/
theorem Unopened.findOpening? {s : List Char} (h : Unopened s) : findOpening? s = none := by
  rw [Option.eq_none_iff_forall_ne_some]
  rintro ⟨before, m, rest⟩ hm
  exact h m ⟨before, rest, (findOpening?_eq_some hm).symm⟩

/-- An opening marker is found after a text without opening markers. -/
theorem Unopened.findOpening?_append {x : List Char} (hx : Unopened x) (m : Marker)
    (y : List Char) : Marker.findOpening? (x ++ (m.opening ++ y)) = some (x, m, y) := by
  obtain ⟨ms, hms, -⟩ := m.opening_eq_cons
  induction x with
  | nil =>
    have h : openingAt? (m.opening ++ y) = some (m, y) := openingAt?_eq_some_iff.2 rfl
    rw [hms] at h ⊢
    rw [List.nil_append, List.cons_append, Marker.findOpening?, ← List.cons_append, h]
  | cons a x ih =>
    have htail : Unopened x := fun n h => hx n (List.infix_cons h)
    have h : openingAt? (a :: (x ++ (m.opening ++ y))) = none := by
      refine openingAt?_eq_none fun n => ?_
      obtain ⟨ns, hns, hnot⟩ := n.opening_eq_cons
      rw [hns, hms]
      refine Text.not_isPrefix_append_cons hnot (List.cons_ne_nil a x) ?_ (ms ++ y)
      rw [← hns]
      exact fun hprefix => hx n hprefix.isInfix
    rw [List.cons_append, Marker.findOpening?, h, ih htail]
    rfl

/-- The opening marker that is found is the first: none begins before it. -/
theorem length_le_of_findOpening? {s lead rest : List Char} {m : Marker}
    (h : findOpening? s = some (lead, m, rest)) {n : Marker} {before after : List Char}
    (hs : s = before ++ (n.opening ++ after)) : lead.length ≤ before.length := by
  fun_induction findOpening? s generalizing lead before with
  | case1 => cases h
  | case2 c cs k r hr =>
    cases h
    exact Nat.zero_le _
  | case3 c cs hr ih =>
    obtain ⟨⟨b, k, r⟩, hb, he⟩ := Option.map_eq_some_iff.1 h
    cases he
    cases before with
    | nil =>
      rw [openingAt?_eq_some_iff.2 hs] at hr
      cases hr
    | cons d ds =>
      obtain ⟨-, hcs⟩ := List.cons.inj hs
      exact Nat.succ_le_succ (ih hb hcs)

/-- Where no opening marker is found, there is none. -/
theorem findOpening?_eq_none_iff {s : List Char} : findOpening? s = none ↔ Unopened s := by
  refine ⟨?_, Unopened.findOpening?⟩
  intro h m hm
  induction s with
  | nil => exact List.length_pos_iff.1 m.opening_length_pos (List.infix_nil.1 hm)
  | cons c cs ih =>
    rw [findOpening?] at h
    cases hat : openingAt? (c :: cs) with
    | some p => simp [hat] at h
    | none =>
      rw [hat] at h
      rcases List.infix_cons_iff.1 hm with ⟨rest, hrest⟩ | hinfix
      · rw [openingAt?_eq_some_iff.2 hrest.symm] at hat
        cases hat
      · exact ih (Option.map_eq_none_iff.1 h) hinfix

/-- After a text stands the first opening marker of a longer one: no opening marker occurs in the
text, and none begins in it. -/
structure First (m : Marker) (lead rest : List Char) : Prop where
  unopened : Unopened lead
  length_le : ∀ (n : Marker) (before after : List Char),
    lead ++ (m.opening ++ rest) = before ++ (n.opening ++ after) → lead.length ≤ before.length

/-- The opening marker that is found is the first one. -/
theorem findOpening?_eq_some_iff {s lead rest : List Char} {m : Marker} :
    findOpening? s = some (lead, m, rest) ↔
      s = lead ++ (m.opening ++ rest) ∧ m.First lead rest := by
  constructor
  · intro h
    have hs : s = lead ++ (m.opening ++ rest) := by
      rw [findOpening?_eq_some h, List.append_assoc]
    refine ⟨hs, ?_, ?_⟩
    · rintro n ⟨a, b, rfl⟩
      have hlen : (a ++ n.opening ++ b).length ≤ a.length :=
        length_le_of_findOpening? h
          (show s = a ++ (n.opening ++ (b ++ (m.opening ++ rest))) by rw [hs]; simp)
      have := n.opening_length_pos
      simp only [List.length_append] at hlen
      omega
    · exact fun n before after hn => length_le_of_findOpening? h (hs.trans hn)
  · rintro ⟨rfl, hfirst⟩
    exact hfirst.unopened.findOpening?_append m rest

/-! ### Taking the markers off -/

/-- The closing marker at the end of a text is left out. -/
theorem withoutClosing_append (m : Marker) (s : List Char) :
    m.withoutClosing (s ++ m.closing) = s := by
  have h : Text.after? m.closing.reverse (s ++ m.closing).reverse = some s.reverse := by
    rw [Text.after?_eq_some_iff, List.reverse_append]
  rw [withoutClosing, h]
  simp

/-- A block between its markers, and with a newline after it, is stripped to its text without the
blanks around it. -/
theorem strip_block (m : Marker) (s : List Char) :
    m.strip (m.opening ++ s ++ m.closing ++ ['\n']) = Text.trim s := by
  have hends : Text.trim (m.opening ++ s ++ m.closing) = m.opening ++ s ++ m.closing := by
    obtain ⟨cs, hcs, -⟩ := m.opening_eq_cons
    obtain ⟨ds, hds⟩ := m.closing_eq_concat
    rw [hcs, hds, ← List.append_assoc, List.cons_append, List.cons_append]
    exact Text.trim_of_ends (by decide) (by decide) _
  have hafter : Text.after? m.opening (m.opening ++ s ++ m.closing) = some (s ++ m.closing) := by
    rw [Text.after?_eq_some_iff, List.append_assoc]
  rw [strip, Text.trim_concat (by decide), hends, hafter, Option.getD_some, withoutClosing_append]

end Marker

end ChatRelay
