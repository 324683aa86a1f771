import ChatRelay.Transcript.Marker

/-!
# Beginnings of markers at the end of a text

A text may end with the beginning of an opening marker, and with several of different lengths.
`Marker.LongestBegun` says which of its ends is the longest that is one. There is one for every
text, and `Marker.partialOpening` finds it (`longestBegun_iff`).
-/

namespace ChatRelay

namespace Marker

/-- The text is a beginning of an opening marker, but neither empty nor the whole of it. -/
def Begun (s : List Char) : Prop :=
  s ≠ [] ∧ ∃ m : Marker, s <+: m.opening ∧ s ≠ m.opening

/-- The test for the beginning of an opening marker says whether the text is one. -/
theorem beginsOpening_iff {s : List Char} : beginsOpening s = true ↔ Begun s := by
  simp only [beginsOpening, Bool.and_eq_true, List.any_eq_true, List.isPrefixOf_iff_prefix,
    decide_eq_true_iff]
  constructor
  · rintro ⟨hs, m, -, hbegin, hlen⟩
    refine ⟨by simpa using hs, m, hbegin, ?_⟩
    intro heq
    rw [heq] at hlen
    exact Nat.lt_irrefl _ hlen
  · rintro ⟨hs, m, hbegin, hne⟩
    have hlen : s.length ≠ m.opening.length := fun heq => hne (hbegin.eq_of_length heq)
    have hmem : m ∈ all := by cases m <;> decide
    exact ⟨by simpa using hs, m, hmem, hbegin, Nat.lt_of_le_of_ne hbegin.length_le hlen⟩

/-- A beginning of what begins an opening marker begins it too. -/
theorem Begun.of_append {s more : List Char} (hs : s ≠ []) (h : Begun (s ++ more)) : Begun s := by
  obtain ⟨-, m, hbegin, hne⟩ := h
  have hle := hbegin.length_le
  have hlen : (s ++ more).length ≠ m.opening.length := fun heq => hne (hbegin.eq_of_length heq)
  refine ⟨hs, m, (List.prefix_append s more).trans hbegin, ?_⟩
  rintro rfl
  rw [List.length_append] at hle hlen
  omega

/-- The text `kept` is the longest end of `s` that is the beginning of an opening marker. If no end
of `s` is, nothing is kept. -/
structure LongestBegun (s kept : List Char) : Prop where
  isSuffix : kept <:+ s
  begun : kept ≠ [] → Begun kept
  length_le : ∀ e, e <:+ s → Begun e → e.length ≤ kept.length

/-- Of a text that begins an opening marker, or is empty, nothing longer could be kept. -/
theorem longestBegun_self {s : List Char} (h : s ≠ [] → Begun s) : LongestBegun s s := by
  constructor
  case isSuffix => exact List.suffix_rfl
  case begun => exact h
  case length_le =>
    intro e he _
    exact he.length_le

/-- The ends of a text are tried from the longest one on, so the first that begins an opening marker
is the longest that does. -/
theorem longestBegun_partialOpening (s : List Char) : LongestBegun s (partialOpening s) := by
  induction s with
  | nil => exact longestBegun_self fun hne => absurd rfl hne
  | cons c cs ih =>
    rw [partialOpening]
    split
    · next hbegins => exact longestBegun_self fun _ => beginsOpening_iff.1 hbegins
    · next hbegins =>
      constructor
      case isSuffix => exact ih.isSuffix.trans (List.suffix_cons c cs)
      case begun => exact ih.begun
      case length_le =>
        intro e he hbegun
        rcases List.suffix_cons_iff.1 he with rfl | he
        · exact absurd (beginsOpening_iff.2 hbegun) hbegins
        · exact ih.length_le e he hbegun

variable {s kept : List Char}

/-- Of two longest beginnings at the end of a text neither is longer. -/
theorem LongestBegun.length_le_of {e : List Char} (h : LongestBegun s kept)
    (he : LongestBegun s e) : e.length ≤ kept.length := by
  by_cases hnil : e = []
  · rw [hnil]
    exact Nat.zero_le _
  · exact h.length_le e he.isSuffix (he.begun hnil)

/-- There is only one longest beginning. -/
theorem longestBegun_iff : LongestBegun s kept ↔ kept = partialOpening s := by
  constructor
  · intro h
    have hpartial := longestBegun_partialOpening s
    have hle : kept.length ≤ (partialOpening s).length := hpartial.length_le_of h
    have hge : (partialOpening s).length ≤ kept.length := h.length_le_of hpartial
    have hends : kept <:+ partialOpening s :=
      List.suffix_of_suffix_length_le h.isSuffix hpartial.isSuffix hle
    exact hends.eq_of_length (Nat.le_antisymm hle hge)
  · rintro rfl
    exact longestBegun_partialOpening s

/-- A text that begins an opening marker is kept whole. -/
theorem Begun.partialOpening_eq (h : Begun s) : partialOpening s = s :=
  (longestBegun_iff.1 (longestBegun_self fun _ => h)).symm

/-- What is left of a text that may become an opening marker is an end of it. -/
theorem partialOpening_isSuffix (s : List Char) : partialOpening s <:+ s :=
  (longestBegun_partialOpening s).isSuffix

end Marker

end ChatRelay
