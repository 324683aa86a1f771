import ChatRelay.Proofs.Json.Completion
import ChatRelay.Text.Blank

/-!
# Blanks between the parts of a JSON text

A blank that is read outside of strings changes nothing but that a number is over after it
(`State.At.read?_blank`). What comes after such a blank and is read there is therefore read without
the blank too (`State.At.readAll?_skip`): only at the end of a text does it make a difference
whether a number is over.
-/

namespace ChatRelay.Json

namespace Reader

variable {s u v : State} {o : Outline} {stack : List Container} {c d : Char}

/-! ### Characters that are no blanks -/

/-- A blank is different from any character that is none. -/
theorem ne_of_isBlank (h : Text.isBlank c = true) (hd : Text.isBlank d = false) : c ≠ d := by
  rintro rfl
  rw [h] at hd
  cases hd

/-- No blank is a letter of a word. -/
theorem not_mem_wordLetters_of_isBlank (h : Text.isBlank c = true) : c ∉ wordLetters := by
  have hletters : (wordLetters.any Text.isBlank) = false := rfl
  exact fun hmem => absurd h (List.any_eq_false.1 hletters c hmem)

/-- No blank is the letter of an escape. -/
theorem shortEscape?_of_isBlank (h : Text.isBlank c = true) : shortEscape? c = none := by
  unfold shortEscape?
  split
  all_goals first | rfl | exact absurd rfl (ne_of_isBlank h rfl)

/-- No blank is a digit. -/
theorem digit?_of_isBlank (h : Text.isBlank c = true) : digit? c = none := by
  unfold digit?
  refine if_neg fun hdigit => ?_
  have hlow : 48 ≤ c.toNat := hdigit.1
  have hhigh : c.toNat ≤ 57 := hdigit.2
  simp only [Text.isBlank, Bool.or_eq_true, Bool.and_eq_true, decide_eq_true_eq, beq_iff_eq] at h
  omega

/-- No blank is a hexadecimal digit. -/
theorem hexValue?_of_isBlank (h : Text.isBlank c = true) : Text.hexValue? c = none := by
  have hdigit : ¬('0' ≤ c ∧ c ≤ '9') := fun hdigit => by
    have hnone := digit?_of_isBlank h
    rw [digit?, if_pos hdigit] at hnone
    exact nomatch hnone
  simp only [Text.isBlank, Bool.or_eq_true, Bool.and_eq_true, decide_eq_true_eq, beq_iff_eq] at h
  have hlower : ¬('a' ≤ c ∧ c ≤ 'f') := fun hletter => by
    have hlow : 97 ≤ c.toNat := hletter.1
    have hhigh : c.toNat ≤ 102 := hletter.2
    omega
  have hupper : ¬('A' ≤ c ∧ c ≤ 'F') := fun hletter => by
    have hlow : 65 ≤ c.toNat := hletter.1
    have hhigh : c.toNat ≤ 70 := hletter.2
    omega
  rw [Text.hexValue?, if_neg hdigit, if_neg hlower, if_neg hupper]

/-- No blank continues a number. -/
theorem push?_of_isBlank (n : Numeral) (h : Text.isBlank c = true) : n.push? c = none := by
  refine push?_eq_none n (digit?_of_isBlank h) ?_
  simp only [List.mem_cons, List.not_mem_nil, or_false]
  rintro (rfl | rfl | rfl | rfl | rfl) <;> exact nomatch h

/-- The spaces of JSON are blank. -/
theorem isBlank_of_isSpace (h : isSpace c = true) : Text.isBlank c = true := by
  simp only [isSpace, Bool.or_eq_true, decide_eq_true_eq] at h
  rcases h with ((rfl | rfl) | rfl) | rfl <;> rfl

/-- No value begins with a blank. -/
theorem begun_of_isBlank (h : Text.isBlank c = true) : begun stack c = none := by
  unfold begun
  split
  case h_9 => rw [digit?_of_isBlank h]; rfl
  all_goals exact nomatch h

/-- No blank closes a container. -/
theorem closed_of_isBlank (h : Text.isBlank c = true) : closed stack c = none := by
  unfold closed
  split
  · exact nomatch h
  · exact nomatch h
  · rfl

/-- Of the blanks, only those of JSON come between the values of a container. -/
theorem eq_of_separated (h : separated stack c = some s) (hc : Text.isBlank c = true) :
    s = ⟨stack, .separator⟩ := by
  unfold separated at h
  split_ifs at h with hspace hcomma
  · exact (Option.some.inj h).symm
  · subst hcomma
    exact nomatch hc
  · rw [closed_of_isBlank hc] at h
    exact nomatch h

/-- What may come after a value is a blank, a comma or an end. -/
theorem mem_of_separated (h : separated stack c = some s) :
    isSpace c = true ∨ c ∈ [',', ']', '}'] := by
  unfold separated at h
  split_ifs at h with hspace hcomma
  · exact .inl hspace
  · subst hcomma
    exact .inr (by decide)
  · unfold closed at h
    split at h
    · exact .inr (by decide)
    · exact .inr (by decide)
    · exact nomatch h

/-- What may come after a value does not go on with a number. -/
theorem push?_of_separated (h : separated stack c = some s) (n : Numeral) :
    n.push? c = none ∧ digit? c = none := by
  rcases mem_of_separated h with hspace | hmem
  · exact ⟨push?_of_isBlank n (isBlank_of_isSpace hspace),
      digit?_of_isBlank (isBlank_of_isSpace hspace)⟩
  · simp only [List.mem_cons, List.not_mem_nil, or_false] at hmem
    rcases hmem with rfl | rfl | rfl <;> exact ⟨push?_eq_none n rfl (by decide), rfl⟩

/-! ### Numbers that are over -/

/-- What is read after a value does not go on with a number. -/
theorem push?_of_completed {t : Tree} (h : completed stack t = some u) (hread : u.read? d = some v)
    (n : Numeral) : n.push? d = none ∧ digit? d = none := by
  obtain ⟨outer, m⟩ := u
  rcases mode_of_completed h with hmode | hmode
  · cases hmode
    exact push?_of_separated hread n
  · cases hmode
    have hspace : isSpace d = true := by
      unfold State.read? at hread
      dsimp only at hread
      split_ifs at hread with hspace
      exact hspace
    exact ⟨push?_of_isBlank n (isBlank_of_isSpace hspace),
      digit?_of_isBlank (isBlank_of_isSpace hspace)⟩

/-- A blank after a value changes nothing. -/
theorem read?_blank_of_completed {t : Tree} (h : completed stack t = some u)
    (hc : Text.isBlank c = true) (hread : u.read? c = some v) : v = u := by
  obtain ⟨outer, m⟩ := u
  rcases mode_of_completed h with hmode | hmode
  · cases hmode
    exact eq_of_separated hread hc
  · cases hmode
    unfold State.read? at hread
    dsimp only at hread
    split_ifs at hread
    exact (Option.some.inj hread).symm

/-! ### Blanks -/

/-- A blank outside of strings changes nothing but that a number is over. -/
theorem State.At.read?_blank (h : s.At o) (hphase : o.phase ≠ .string)
    (hc : Text.isBlank c = true) (hread : s.read? c = some u) :
    u = s ∨ ∃ n, s.mode = .number n ∧ n.canEnd = true ∧
      completed s.stack (.number n.literal) = some u := by
  obtain ⟨stack, m⟩ := s
  obtain ⟨rfl, hletters, -⟩ := h
  have hbegun : begun stack c = none := begun_of_isBlank hc
  have hquote : c ≠ '"' := ne_of_isBlank hc rfl
  have hcolon : c ≠ ':' := ne_of_isBlank hc rfl
  cases m with
  | string => exact absurd rfl hphase
  | word rest t =>
    rw [read?_word (hletters rest t rfl) (not_mem_wordLetters_of_isBlank hc)] at hread
    cases hread
  | separator => exact .inl (eq_of_separated hread hc)
  | number n =>
    -- The blank is what ends the number, and is then read once more, after the value.
    rw [read?_number_of_push? (push?_of_isBlank n hc)] at hread
    split_ifs at hread with hend
    have hcan : n.canEnd = true := (Bool.and_eq_true_iff.1 hend).1
    obtain ⟨v, hv, hread⟩ := Option.bind_eq_some_iff.1 hread
    rw [read?_blank_of_completed hv hc hread]
    exact .inr ⟨n, rfl, hcan, hv⟩
  | escape isKey pieces =>
    unfold State.read? at hread
    dsimp only at hread
    rw [if_neg (ne_of_isBlank hc rfl), shortEscape?_of_isBlank hc] at hread
    cases hread
  | codeUnit isKey pieces owed unit =>
    unfold State.read? at hread
    dsimp only at hread
    rw [hexValue?_of_isBlank hc] at hread
    cases hread
  | value =>
    unfold State.read? at hread
    dsimp only at hread
    split_ifs at hread
    · exact .inl (Option.some.inj hread).symm
    · rw [hbegun] at hread
      cases hread
  | firstItem =>
    unfold State.read? at hread
    dsimp only at hread
    rw [closed_of_isBlank hc, hbegun] at hread
    split_ifs at hread
    exact .inl (Option.some.inj hread).symm
  | key | colon | finished =>
    unfold State.read? at hread
    dsimp only at hread
    split_ifs at hread
    exact .inl (Option.some.inj hread).symm
  | firstKey =>
    unfold State.read? at hread
    dsimp only at hread
    rw [closed_of_isBlank hc] at hread
    split_ifs at hread
    exact .inl (Option.some.inj hread).symm

/-- What is read after a blank outside of strings is read without it too. -/
theorem State.At.read?_skip (h : s.At o) (hphase : o.phase ≠ .string)
    (hc : Text.isBlank c = true) (hu : s.read? c = some u) (hv : u.read? d = some v) :
    s.read? d = some v := by
  rcases h.read?_blank hphase hc hu with rfl | ⟨n, hmode, hcan, hcompleted⟩
  · exact hv
  obtain ⟨stack, m⟩ := s
  cases hmode
  obtain ⟨hpush, hdigit⟩ := push?_of_completed hcompleted hv n
  rw [read?_number_of_push? hpush, hcan, hdigit, hcompleted]
  exact hv

/-- What is read after blanks outside of strings is read without them too. -/
theorem State.At.readAll?_skip {lead text : List Char} (h : s.At o) (hphase : o.phase ≠ .string)
    (hlead : Text.isAllBlank lead = true) (htext : text ≠ [])
    (hread : s.readAll? (lead ++ text) = some u) : s.readAll? text = some u := by
  induction lead generalizing s o with
  | nil => exact hread
  | cons c lead ih =>
    obtain ⟨hc, hlead⟩ := Bool.and_eq_true_iff.1 hlead
    obtain ⟨v, hv, hrest⟩ := Option.bind_eq_some_iff.1 hread
    have hafter : (o.after c).phase ≠ .string := by
      rw [← (h.read? hv).outline]
      rcases h.read?_blank hphase hc hv with rfl | ⟨n, -, -, hcompleted⟩
      · rwa [h.outline]
      · rw [(at_of_completed hcompleted).outline]
        nofun
    have htail := ih (h.read? hv) hafter hlead hrest
    obtain ⟨d, rest, rfl⟩ := List.exists_cons_of_ne_nil htext
    obtain ⟨w, hw, hw'⟩ := Option.bind_eq_some_iff.1 htail
    exact Option.bind_eq_some_iff.2 ⟨w, h.read?_skip hphase hc hv hw, hw'⟩

end Reader

open Reader

/-- Whether a text ends inside of a string. -/
def EndsInString (text : List Char) : Prop :=
  ∃ s, State.initial.readAll? text = some s ∧ s.mode.phase = .string

/-- Blanks inside of a JSON text, but outside of its strings, say nothing. -/
theorem parse?_skip {c : Char} {a blanks b : List Char} {t : Tree} (hc : isSpace c = false)
    (hstring : ¬EndsInString (c :: a)) (hblanks : Text.isAllBlank blanks = true) (hb : b ≠ [])
    (h : Tree.parse? (c :: a ++ blanks ++ b) = some t) : Tree.parse? (c :: a ++ b) = some t := by
  rw [Tree.parse?, List.append_assoc, State.readAll_append] at h
  obtain ⟨u, hu, hend⟩ := Option.bind_eq_some_iff.1 h
  obtain ⟨s, hs, hu⟩ := Option.bind_eq_some_iff.1 hu
  obtain ⟨o, ho⟩ := exists_at_of_readAll? hc hs
  have hphase : o.phase ≠ .string := fun hphase =>
    hstring ⟨s, hs, (congrArg Outline.phase ho.outline).trans hphase⟩
  rw [Tree.parse?, State.readAll_append, hs]
  exact Option.bind_eq_some_iff.2 ⟨u, ho.readAll?_skip hphase hblanks hb hu, hend⟩

end ChatRelay.Json
