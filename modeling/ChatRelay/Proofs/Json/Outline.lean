import ChatRelay.Json.Reader
import Mathlib.Tactic.SplitIfs

/-!
# What a reading is inside of

Whether a reading stands inside of a string, and how many containers are open, hangs on the
characters read so far and on nothing else: quotation marks begin and end strings, a backslash
begins an escape, and brackets outside of strings open and close containers. This is the outline of
a reading. Each character that is read changes the outline alike wherever it is read
(`State.At.read?`, `State.At.readAll?`).
-/

namespace ChatRelay.Json

namespace Reader

/-! ### Outlines -/

/-- Where a reading stands as to strings. -/
inductive Phase where
  | outside
  | string
  | escape
  /-- Inside of an escaped code unit of which one digit more than `owed` is to come. -/
  | codeUnit (owed : Nat)

/-- The phase after one more character. -/
def Phase.after : Phase → Char → Phase
  | .outside, c => if c = '"' then .string else .outside
  | .string, c => if c = '"' then .outside else if c = '\\' then .escape else .string
  | .escape, c => if c = 'u' then .codeUnit 3 else .string
  | .codeUnit 0, _ => .string
  | .codeUnit (owed + 1), _ => .codeUnit owed

/-- How many more containers are open after one more character. -/
def Phase.rise : Phase → Char → Int
  | .outside, '[' | .outside, '{' => 1
  | .outside, ']' | .outside, '}' => -1
  | _, _ => 0

/-- What a reading is inside of. -/
structure Outline where
  phase : Phase
  depth : Int

/-- The outline after one more character. -/
def Outline.after (o : Outline) (c : Char) : Outline :=
  ⟨o.phase.after c, o.depth + o.phase.rise c⟩

/-- The phase of a mode. -/
def Mode.phase : Mode → Phase
  | .string .. => .string
  | .escape .. => .escape
  | .codeUnit _ _ owed _ => .codeUnit owed
  | _ => .outside

/-- What the state of a reading is inside of. -/
def State.outline (s : State) : Outline :=
  ⟨s.mode.phase, s.stack.length⟩

/-- Containers around the text change the depth alone. -/
theorem foldl_after_add (text : List Char) (p : Phase) (d k : Int) :
    text.foldl Outline.after ⟨p, d + k⟩ =
      ⟨(text.foldl Outline.after ⟨p, d⟩).phase, (text.foldl Outline.after ⟨p, d⟩).depth + k⟩ := by
  induction text generalizing p d with
  | nil => rfl
  | cons c text ih =>
    have hdepth : d + k + p.rise c = d + p.rise c + k := by omega
    rw [List.foldl_cons, List.foldl_cons, Outline.after, Outline.after, hdepth]
    exact ih _ _

/-- The characters that change an outline outside of strings. -/
def marks : List Char := ['"', '[', '{', ']', '}']

/-- Outside of strings only marks change an outline. -/
theorem after_of_not_mem {c : Char} (h : c ∉ marks) (d : Int) :
    (Outline.mk .outside d).after c = ⟨.outside, d⟩ := by
  simp only [marks, List.mem_cons, List.not_mem_nil, or_false, not_or] at h
  obtain ⟨hquote, hopen, hbrace, hclose, hend⟩ := h
  have hphase : Phase.outside.after c = .outside := if_neg hquote
  have hrise : Phase.outside.rise c = 0 := by
    unfold Phase.rise
    split <;> simp_all
  rw [Outline.after, hphase, hrise, Int.add_zero]

/-! ### Characters that are no marks -/

/-- The letters of the words that stand for values, but for their first ones. -/
def wordLetters : List Char := ['a', 'e', 'l', 'r', 's', 'u']

/-- No letter of a word is a mark. -/
theorem not_mem_marks_of_mem_wordLetters {c : Char} (h : c ∈ wordLetters) : c ∉ marks := by
  revert h
  simp only [wordLetters, List.mem_cons, List.not_mem_nil, or_false]
  rintro (rfl | rfl | rfl | rfl | rfl | rfl) <;> decide

/-- No space is a mark. -/
theorem not_mem_marks_of_isSpace {c : Char} (h : isSpace c = true) : c ∉ marks := by
  simp only [isSpace, Bool.or_eq_true, decide_eq_true_eq] at h
  rcases h with ((rfl | rfl) | rfl) | rfl <;> decide

/-- No mark is a digit. -/
theorem digit?_of_mem_marks {c : Char} (h : c ∈ marks) : digit? c = none := by
  revert h
  simp only [marks, List.mem_cons, List.not_mem_nil, or_false]
  rintro (rfl | rfl | rfl | rfl | rfl) <;> rfl

/-- A numeral goes on with digits and with the marks of its fraction and exponent. -/
theorem push?_eq_none (n : Numeral) {c : Char} (hdigit : digit? c = none)
    (hc : c ∉ ['.', 'e', 'E', '+', '-']) : n.push? c = none := by
  unfold Numeral.push?
  rw [hdigit]
  cases n.place <;> simp_all

/-- No mark continues a number. -/
theorem push?_of_mem_marks (n : Numeral) {c : Char} (h : c ∈ marks) : n.push? c = none := by
  refine push?_eq_none n (digit?_of_mem_marks h) ?_
  revert h
  simp only [marks, List.mem_cons, List.not_mem_nil, or_false]
  rintro (rfl | rfl | rfl | rfl | rfl) <;> decide

/-! ### Values outside of all containers -/

/-- A value is being read or has been read, and its tree has the property if it is known. -/
def Mode.InValue (p : Tree → Prop) : Mode → Prop
  | .word _ t | .finished t => p t
  | .number _ | .string .. | .escape .. | .codeUnit .. => True
  | _ => False

/-- A value that begins with no bracket stays outside of all containers. -/
theorem Mode.InValue.read? {p : Tree → Prop} (hnumber : ∀ l, p (.number l))
    (hstring : ∀ pieces, p (.string pieces)) {m : Mode} (h : m.InValue p) {c : Char} {s : State}
    (hread : (State.mk [] m).read? c = some s) : s.stack = [] ∧ s.mode.InValue p := by
  unfold State.read? at hread
  -- A number is finished by what follows it, and a string by its last quote. What a word stands for
  -- was settled by its first letter.
  cases m with
  | value | firstItem | key | firstKey | colon | separator => exact h.elim
  | word rest t =>
    cases rest with
    | nil => exact nomatch hread
    | cons w rest =>
      dsimp only at hread
      split_ifs at hread
      all_goals
        cases hread
        exact ⟨rfl, h⟩
  | number n =>
    dsimp only at hread
    split at hread
    · cases hread
      exact ⟨rfl, trivial⟩
    · split_ifs at hread
      cases hread
      exact ⟨rfl, hnumber _⟩
  | string isKey pieces =>
    dsimp only at hread
    split_ifs at hread
    · cases isKey with
      | true => exact nomatch hread
      | false =>
        cases hread
        exact ⟨rfl, hstring _⟩
    all_goals
      cases hread
      exact ⟨rfl, trivial⟩
  | escape isKey pieces =>
    dsimp only at hread
    split_ifs at hread
    · cases hread
      exact ⟨rfl, trivial⟩
    · obtain ⟨e, -, rfl⟩ := Option.map_eq_some_iff.1 hread
      exact ⟨rfl, trivial⟩
  | codeUnit isKey pieces owed unit =>
    obtain ⟨d, -, rfl⟩ := Option.map_eq_some_iff.1 hread
    cases owed <;> exact ⟨rfl, trivial⟩
  | finished t =>
    dsimp only at hread
    split_ifs at hread
    cases hread
    exact ⟨rfl, h⟩

/-! ### One character -/

/-- The reading has begun, and this is what it is inside of. -/
structure State.At (s : State) (o : Outline) : Prop where
  outline : s.outline = o
  lettered : ∀ rest t, s.mode = .word rest t → ∀ c ∈ rest, c ∈ wordLetters
  started : s.stack = [] → s.mode.InValue fun _ => True

variable {s u : State} {o : Outline} {stack : List Container} {c : Char}

/-- After a value that is complete the reading is inside of the same containers. -/
theorem at_of_completed {t : Tree} (h : completed stack t = some s) :
    s.At ⟨.outside, stack.length⟩ := by
  unfold completed at h
  split at h
  · cases h
    exact ⟨rfl, nofun, fun _ => trivial⟩
  · cases h
    exact ⟨rfl, nofun, nofun⟩
  · cases h
    exact ⟨rfl, nofun, nofun⟩
  · exact nomatch h

/-- After a closing bracket it is inside of one container less. -/
theorem at_of_closed (h : closed stack c = some s) :
    s.At ((Outline.mk .outside stack.length).after c) := by
  have houter (outer : List Container) (t : Tree) (h : completed outer t = some s) :
      s.At ⟨.outside, (outer.length + 1 : Nat) + -1⟩ := by
    have hdepth : ((outer.length + 1 : Nat) : Int) + -1 = outer.length := by omega
    rw [hdepth]
    exact at_of_completed h
  unfold closed at h
  split at h
  · exact houter _ _ h
  · exact houter _ _ h
  · exact nomatch h

/-- Within a word it is inside of the same containers. -/
theorem at_mk_word {rest : List Char} {t : Tree} (hletters : ∀ d ∈ rest, d ∈ wordLetters) :
    (State.mk stack (.word rest t)).At ⟨.outside, stack.length⟩ := by
  refine ⟨rfl, fun rest' t' h => ?_, fun _ => trivial⟩
  cases h
  exact hletters

/-- A value that begins leads to the outline after its first character. -/
theorem at_of_begun (h : begun stack c = some s) :
    s.At ((Outline.mk .outside stack.length).after c) := by
  unfold begun at h
  split at h
  case h_9 =>
    obtain ⟨d, hd, rfl⟩ := Option.map_eq_some_iff.1 h
    have hmark : c ∉ marks := fun hmem => by
      rw [digit?_of_mem_marks hmem] at hd
      exact nomatch hd
    rw [after_of_not_mem hmark]
    exact ⟨rfl, nofun, fun _ => trivial⟩
  all_goals cases h
  · exact ⟨rfl, nofun, nofun⟩
  · exact ⟨rfl, nofun, nofun⟩
  · exact ⟨rfl, nofun, fun _ => trivial⟩
  · exact at_mk_word (by simp [wordLetters])
  · exact at_mk_word (by simp [wordLetters])
  · exact at_mk_word (by simp [wordLetters])
  · exact ⟨rfl, nofun, fun _ => trivial⟩
  · exact ⟨rfl, nofun, fun _ => trivial⟩

/-- Between items or members a character leads to the outline after it. -/
theorem at_of_separated (hstack : stack ≠ []) (h : separated stack c = some s) :
    s.At ((Outline.mk .outside stack.length).after c) := by
  unfold separated at h
  split_ifs at h with hspace hcomma
  · cases h
    rw [after_of_not_mem (not_mem_marks_of_isSpace hspace)]
    exact ⟨rfl, nofun, fun hnil => absurd hnil hstack⟩
  · subst hcomma
    rw [after_of_not_mem (by decide)]
    split at h
    · cases h
      exact ⟨rfl, nofun, nofun⟩
    · cases h
      exact ⟨rfl, nofun, nofun⟩
    · exact nomatch h
  · exact at_of_closed h

/-- After a string the reading is outside of strings again. -/
theorem at_of_stringEnded {isKey : Bool} {pieces : List Piece}
    (h : stringEnded stack isKey pieces = some s) : s.At ⟨.outside, stack.length⟩ := by
  unfold stringEnded at h
  split_ifs at h
  · split at h
    · cases h
      exact ⟨rfl, nofun, nofun⟩
    · exact nomatch h
  · exact at_of_completed h

/-- A character within a word leads to the outline after it. -/
theorem at_of_word {rest : List Char} {t : Tree} (hletters : ∀ d ∈ rest, d ∈ wordLetters)
    (h : (State.mk stack (.word rest t)).read? c = some u) :
    u.At ((Outline.mk .outside stack.length).after c) := by
  unfold State.read? at h
  cases rest with
  | nil => exact nomatch h
  | cons w rest =>
    dsimp only at h
    split_ifs at h with hw hlast
    all_goals
      subst hw
      rw [after_of_not_mem (not_mem_marks_of_mem_wordLetters (hletters c List.mem_cons_self))]
    · exact at_of_completed h
    · cases h
      exact at_mk_word fun d hd => hletters d (List.mem_cons_of_mem c hd)

/-- A value that is complete stands before a separator or at the end of the text. -/
theorem mode_of_completed {t : Tree} (h : completed stack t = some s) :
    s.mode = .separator ∨ s.mode = .finished t := by
  cases stack with
  | nil =>
    cases h
    exact .inr rfl
  | cons container outer => cases container <;> cases h <;> exact .inl rfl

/-- A character after a value that is complete leads to the outline after it. -/
theorem at_of_read?_completed {t : Tree} (h : completed stack t = some s)
    (hread : s.read? c = some u) : u.At ((Outline.mk .outside stack.length).after c) := by
  obtain ⟨houtline, -, hstarted⟩ := at_of_completed h
  have hmode := mode_of_completed h
  obtain ⟨outer, m⟩ := s
  have hdepth : (outer.length : Int) = stack.length := congrArg Outline.depth houtline
  rw [← hdepth]
  rcases hmode with hmode | hmode <;> cases hmode
  · exact at_of_separated hstarted hread
  · unfold State.read? at hread
    dsimp only at hread
    split_ifs at hread with hspace
    cases hread
    exact ⟨(after_of_not_mem (not_mem_marks_of_isSpace hspace) _).symm, nofun, fun _ => trivial⟩

/-- A number ends with a character that does not go on with it, which is read after the number. -/
theorem read?_number_of_push? {n : Numeral} (hpush : n.push? c = none) :
    (State.mk stack (.number n)).read? c =
      if n.canEnd && (digit? c).isNone then
        (completed stack (.number n.literal)).bind fun v => v.read? c
      else none := by
  unfold State.read?
  dsimp only
  rw [hpush]
  cases n.canEnd && (digit? c).isNone with
  | false => rfl
  | true =>
    cases stack with
    | nil => rfl
    | cons container outer => cases container <;> rfl

/-- A character within a number, or the one that ends it, leads to the outline after it. -/
theorem at_of_number {n : Numeral} (h : (State.mk stack (.number n)).read? c = some u) :
    u.At ((Outline.mk .outside stack.length).after c) := by
  cases hpush : n.push? c with
  | some m =>
    have hmark : c ∉ marks := fun hmem => by
      rw [push?_of_mem_marks n hmem] at hpush
      exact nomatch hpush
    unfold State.read? at h
    dsimp only at h
    rw [hpush] at h
    cases h
    exact ⟨(after_of_not_mem hmark _).symm, nofun, fun _ => trivial⟩
  | none =>
    rw [read?_number_of_push? hpush] at h
    split_ifs at h
    obtain ⟨v, hv, hread⟩ := Option.bind_eq_some_iff.1 h
    exact at_of_read?_completed hv hread

/-- A character within a string leads to the outline after it. -/
theorem at_of_string {isKey : Bool} {pieces : List Piece}
    (h : (State.mk stack (.string isKey pieces)).read? c = some u) :
    u.At ((Outline.mk .string stack.length).after c) := by
  unfold State.read? at h
  dsimp only at h
  split_ifs at h with hquote hslash
  · subst hquote
    have hdepth : (stack.length : Int) + 0 = stack.length := Int.add_zero _
    have hat := at_of_stringEnded h
    rwa [← hdepth] at hat
  · cases h
    subst hslash
    exact ⟨rfl, nofun, fun _ => trivial⟩
  · cases h
    refine ⟨?_, nofun, fun _ => trivial⟩
    rw [Outline.after, Phase.after, if_neg hquote, if_neg hslash]
    rfl

/-- The character after a backslash leads to the outline after it. -/
theorem at_of_escape {isKey : Bool} {pieces : List Piece}
    (h : (State.mk stack (.escape isKey pieces)).read? c = some u) :
    u.At ((Outline.mk .escape stack.length).after c) := by
  unfold State.read? at h
  dsimp only at h
  split_ifs at h with hunit
  · cases h
    subst hunit
    exact ⟨rfl, nofun, fun _ => trivial⟩
  · obtain ⟨e, -, rfl⟩ := Option.map_eq_some_iff.1 h
    refine ⟨?_, nofun, fun _ => trivial⟩
    rw [Outline.after, Phase.after, if_neg hunit]
    rfl

/-- A character that is read changes what the reading is inside of, whatever else is known of it. -/
theorem State.At.read? (h : s.At o) (hread : s.read? c = some u) : u.At (o.after c) := by
  obtain ⟨stack, m⟩ := s
  obtain ⟨rfl, hletters, hstarted⟩ := h
  have hspace (hphase : m.phase = .outside) (hc : isSpace c = true) :
      (State.mk stack m).At ((State.mk stack m).outline.after c) := by
    refine ⟨?_, hletters, hstarted⟩
    rw [State.outline, hphase, after_of_not_mem (not_mem_marks_of_isSpace hc)]
  cases m with
  | word rest t => exact at_of_word (hletters rest t rfl) hread
  | number n => exact at_of_number hread
  | string isKey pieces => exact at_of_string hread
  | escape isKey pieces => exact at_of_escape hread
  | codeUnit isKey pieces owed unit =>
    obtain ⟨d, -, rfl⟩ := Option.map_eq_some_iff.1 hread
    cases owed <;> exact ⟨rfl, nofun, fun _ => trivial⟩
  | separator => exact at_of_separated hstarted hread
  | value =>
    unfold State.read? at hread
    dsimp only at hread
    split_ifs at hread with hc
    · cases hread
      exact hspace rfl hc
    · exact at_of_begun hread
  | firstItem =>
    unfold State.read? at hread
    dsimp only at hread
    split_ifs at hread with hc
    · cases hread
      exact hspace rfl hc
    · exact at_of_closed hread
    · exact at_of_begun hread
  | key =>
    unfold State.read? at hread
    dsimp only at hread
    split_ifs at hread with hc hquote
    · cases hread
      exact hspace rfl hc
    · subst hquote
      cases hread
      exact ⟨rfl, nofun, fun _ => trivial⟩
  | firstKey =>
    unfold State.read? at hread
    dsimp only at hread
    split_ifs at hread with hc hend hquote
    · cases hread
      exact hspace rfl hc
    · exact at_of_closed hread
    · subst hquote
      cases hread
      exact ⟨rfl, nofun, fun _ => trivial⟩
  | colon =>
    unfold State.read? at hread
    dsimp only at hread
    split_ifs at hread with hc hcolon
    · cases hread
      exact hspace rfl hc
    · subst hcolon
      cases hread
      exact ⟨(after_of_not_mem (by decide) _).symm, nofun, hstarted⟩
  | finished t =>
    unfold State.read? at hread
    dsimp only at hread
    split_ifs at hread with hc
    cases hread
    exact hspace rfl hc

/-- A text that is read changes what the reading is inside of as its characters say. -/
theorem State.At.readAll? {text : List Char} (h : s.At o) (hread : s.readAll? text = some u) :
    u.At (text.foldl Outline.after o) := by
  induction text generalizing s o with
  | nil =>
    cases hread
    exact h
  | cons c text ih =>
    obtain ⟨v, hv, hrest⟩ := Option.bind_eq_some_iff.1 hread
    exact ih (h.read? hv) hrest

end Reader

end ChatRelay.Json
