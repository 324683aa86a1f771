import ChatRelay.Proofs.Transcript.Offsets

/-!
# What is kept of a text for the next scan

A text without opening markers may end with the beginning of one, which only the text to come
completes. Of such a text the longest end that begins an opening marker is kept (`LongestBegun`),
and all that stands before it is dropped. Nothing is lost by that, whatever follows: an opening
marker that is complete in the longer text begins in what was kept, or behind it. And no shorter end
would do.

Main result: the offset that a scan drops a text up to leaves exactly that end
(`retention_of_unopened`).
-/

namespace ChatRelay

namespace Marker

/-- A text without opening markers has no part with one. -/
theorem Unopened.of_isSuffix {s e : List Char} (h : Unopened s) (he : e <:+ s) : Unopened e := by
  intro m hm
  exact h m (hm.trans he.isInfix)

/-! ### What the kept end is good for -/

variable {s gone : List Char}

/-- An opening marker of a longer text begins behind what is dropped. Where it would begin earlier,
the text up to its end either holds it whole or ends with a longer beginning of it than the one that
is kept. -/
theorem Unopened.exists_eq_gone_append (h : Unopened s) (hgone : gone ++ partialOpening s = s)
    {w x y : List Char} {m : Marker} (hs : s ++ w = x ++ (m.opening ++ y)) :
    ∃ x', x = gone ++ x' ∧ partialOpening s ++ w = x' ++ (m.opening ++ y) := by
  have hsplit : gone ++ (partialOpening s ++ w) = x ++ (m.opening ++ y) := by
    rw [← List.append_assoc, hgone, hs]
  rcases List.append_eq_append_iff.1 hsplit with ⟨x', hx, hrest⟩ | ⟨lead, hlead, hrest⟩
  · exact ⟨x', hx, hrest⟩
  · by_cases hnil : lead = []
    · subst hnil
      exact ⟨[], by rw [hlead]; simp, hrest.symm⟩
    · -- The marker begins before the kept end: in the text, or with all of its rest.
      have htext : s = x ++ (lead ++ partialOpening s) := by
        rw [← List.append_assoc, ← hlead, hgone]
      have hlen : (partialOpening s).length < (lead ++ partialOpening s).length := by
        have := List.length_pos_iff.2 hnil
        rw [List.length_append]
        omega
      have hmarker : m.opening ++ y = (lead ++ partialOpening s) ++ w := by
        rw [List.append_assoc, hrest]
      exfalso
      rcases List.append_eq_append_iff.1 hmarker with ⟨z, hz, -⟩ | ⟨z, hz, -⟩
      · refine h m ⟨x, z, ?_⟩
        rw [List.append_assoc, ← hz, ← htext]
      · exact not_isPrefix_opening h.findOpening? htext hlen m ⟨z, hz.symm⟩

/-- From less than the kept end, an opening marker that some text completes could not be told. -/
theorem exists_opening_of_isSuffix {e : List Char} (he : e <:+ partialOpening s)
    (hne : e ≠ partialOpening s) :
    ∃ (m : Marker) (w : List Char), m.opening <:+: s ++ w ∧ ¬m.opening <:+: e ++ w := by
  have hnil : partialOpening s ≠ [] := by
    intro hnil
    rw [hnil] at he hne
    exact hne (List.suffix_nil.1 he)
  obtain ⟨m, w, hm, -⟩ := exists_opening_of_partialOpening hnil
  refine ⟨m, w, ?_, ?_⟩
  · obtain ⟨before, hbefore⟩ := partialOpening_isSuffix s
    refine ⟨before, [], ?_⟩
    rw [hm, List.append_nil, ← List.append_assoc, hbefore]
  · intro hinfix
    have hle := hinfix.length_le
    have hlt : e.length < (partialOpening s).length :=
      Nat.lt_of_le_of_ne he.length_le fun heq => hne (he.eq_of_length heq)
    rw [hm, List.length_append, List.length_append] at hle
    omega

/-- Of a text without opening markers, the offset up to which it is dropped lies where a character
begins, and leaves exactly the longest end that is the beginning of an opening marker, or nothing if
no end is. Whatever follows, the opening markers of the longer text are those of what is kept and
what follows, each as far behind what is dropped. With any shorter end, an opening marker could be
missed. -/
theorem retention_of_unopened (h : Unopened s) :
    ∃ gone, Text.divide? s (offsetOfPartial s) = some (gone, partialOpening s) ∧
      (∀ kept, LongestBegun s kept ↔ kept = partialOpening s) ∧
      (∀ (w x y : List Char) (m : Marker), s ++ w = x ++ (m.opening ++ y) ↔
        ∃ x', x = gone ++ x' ∧ partialOpening s ++ w = x' ++ (m.opening ++ y)) ∧
      ∀ e, e <:+ partialOpening s → e ≠ partialOpening s →
        ∃ (m : Marker) (w : List Char), m.opening <:+: s ++ w ∧ ¬m.opening <:+: e ++ w := by
  obtain ⟨gone, hdivide⟩ := divide?_offsetOfPartial h.findOpening?
  obtain ⟨hs, -⟩ := Text.divide?_eq_some_iff.1 hdivide
  refine ⟨gone, hdivide, ?_, ?_, ?_⟩
  · intro kept
    exact longestBegun_iff
  · intro w x y m
    constructor
    · intro hfound
      exact h.exists_eq_gone_append hs.symm hfound
    · rintro ⟨x', rfl, hfound⟩
      calc s ++ w = gone ++ (partialOpening s ++ w) := by rw [← List.append_assoc, ← hs]
        _ = gone ++ x' ++ (m.opening ++ y) := by rw [hfound, List.append_assoc]
  · intro e he hne
    exact exists_opening_of_isSuffix he hne

/-- After a character of two bytes, and a bracket that begins nothing, four characters are kept. -/
theorem retention_of_unopened_twoBrackets :
    Unopened "né<<thi".toList ∧
      Text.divide? "né<<thi".toList (offsetOfPartial "né<<thi".toList) =
        some ("né<".toList, "<thi".toList) ∧
      LongestBegun "né<<thi".toList "<thi".toList ∧
      ∀ (w x y : List Char) (m : Marker), "né<<thi".toList ++ w = x ++ (m.opening ++ y) ↔
        ∃ x', x = "né<".toList ++ x' ∧ "<thi".toList ++ w = x' ++ (m.opening ++ y) := by
  have hunopened : Unopened "né<<thi".toList := findOpening?_eq_none_iff.1 (by decide)
  have hkept : partialOpening "né<<thi".toList = "<thi".toList := by decide
  have hoffset : Text.divide? "né<<thi".toList (offsetOfPartial "né<<thi".toList) =
      some ("né<".toList, "<thi".toList) := by decide
  obtain ⟨gone, hdivide, hlongest, hfound, -⟩ := retention_of_unopened hunopened
  rw [hkept] at hdivide hlongest hfound
  obtain ⟨rfl, -⟩ := Prod.mk.inj (Option.some.inj (hdivide.symm.trans hoffset))
  exact ⟨hunopened, hoffset, (hlongest _).2 rfl, hfound⟩

end Marker

end ChatRelay
