/-!
# Blank characters

A character is blank when it has the Unicode property White_Space. This module holds the property
and the trimming of text by it. Trimming only ever drops characters at the two ends, so the trimmed
text is a contiguous part of the text (`trim_isInfix`), and a text trims to nothing exactly when all
of its characters are blank (`trim_eq_nil_iff`).
-/

namespace ChatRelay.Text

/-- The characters with the Unicode property White_Space. -/
def isBlank (c : Char) : Bool :=
  let n := c.toNat
  (0x9 ≤ n && n ≤ 0xD) || n == 0x20 || n == 0x85 || n == 0xA0 || n == 0x1680 ||
    (0x2000 ≤ n && n ≤ 0x200A) || n == 0x2028 || n == 0x2029 || n == 0x202F || n == 0x205F ||
    n == 0x3000

/-- The text without its leading blanks. -/
def trimStart (s : List Char) : List Char :=
  s.dropWhile isBlank

/-- The text without its trailing blanks. -/
def trimEnd (s : List Char) : List Char :=
  (s.reverse.dropWhile isBlank).reverse

/-- The text without the blanks at its two ends. -/
def trim (s : List Char) : List Char :=
  trimEnd (trimStart s)

/-- Whether nothing but blanks occurs in the text. -/
def isAllBlank (s : List Char) : Bool :=
  s.all isBlank

/-! ### What trimming keeps -/

/-- What is left without the leading blanks is an end of the text. -/
theorem trimStart_isSuffix (s : List Char) : trimStart s <:+ s :=
  List.dropWhile_suffix _

/-- What is left without the trailing blanks is a beginning of it. -/
theorem trimEnd_isPrefix (s : List Char) : trimEnd s <+: s := by
  have h : s.reverse.dropWhile isBlank <:+ s.reverse := List.dropWhile_suffix _
  rw [← List.reverse_suffix]
  simpa [trimEnd] using h

/-- A trimmed text is a contiguous part of the text. -/
theorem trim_isInfix (s : List Char) : trim s <:+: s :=
  (trimEnd_isPrefix (trimStart s)).isInfix.trans (trimStart_isSuffix s).isInfix

/-- Nothing is left without the leading blanks exactly if there are only blanks. -/
theorem dropWhile_isBlank_eq_nil_iff (s : List Char) :
    s.dropWhile isBlank = [] ↔ isAllBlank s = true := by
  induction s with
  | nil => simp [isAllBlank]
  | cons c cs ih =>
    rw [List.dropWhile_cons, isAllBlank, List.all_cons]
    cases isBlank c with
    | true => exact ih
    | false => exact ⟨nofun, nofun⟩

/-- Leading blanks do not matter to whether there are only blanks. -/
theorem isAllBlank_trimStart (s : List Char) : isAllBlank (trimStart s) = isAllBlank s := by
  induction s with
  | nil => rfl
  | cons c cs ih =>
    by_cases h : isBlank c = true
    · simpa [trimStart, List.dropWhile_cons, h, isAllBlank] using ih
    · simp [trimStart, h, isAllBlank]

/-- A text trims to nothing exactly if it has only blanks. -/
theorem trim_eq_nil_iff (s : List Char) : trim s = [] ↔ isAllBlank s = true := by
  rw [← isAllBlank_trimStart, trim, trimEnd, List.reverse_eq_nil_iff, dropWhile_isBlank_eq_nil_iff,
    isAllBlank, List.all_reverse, isAllBlank]

/-! ### Trimming twice -/

/-- A text that does not begin with a blank has no leading blanks. -/
theorem trimStart_eq_self {s : List Char} (h : ∀ c ∈ s.head?, isBlank c = false) :
    trimStart s = s := by
  cases s with
  | nil => rfl
  | cons c s => rw [trimStart, List.dropWhile_cons, h c rfl, if_neg Bool.false_ne_true]

/-- Without its leading blanks a text does not begin with a blank. -/
theorem isBlank_head?_trimStart (s : List Char) :
    ∀ c ∈ (trimStart s).head?, isBlank c = false := by
  intro c hc
  have hnot := List.head?_dropWhile_not isBlank s
  rw [← trimStart, Option.mem_def.1 hc] at hnot
  exact hnot

/-- Trailing blanks are dropped all at once. -/
theorem trimEnd_trimEnd (s : List Char) : trimEnd (trimEnd s) = trimEnd s := by
  have hstart : trimStart (s.reverse.dropWhile isBlank) = s.reverse.dropWhile isBlank :=
    trimStart_eq_self (isBlank_head?_trimStart s.reverse)
  rw [trimEnd, trimEnd, List.reverse_reverse]
  exact congrArg List.reverse hstart

/-- A trimmed text does not begin with a blank. -/
theorem isBlank_head?_trim (s : List Char) : ∀ c ∈ (trim s).head?, isBlank c = false := by
  intro c hc
  refine isBlank_head?_trimStart s c ?_
  obtain ⟨rest, hrest⟩ := trimEnd_isPrefix (trimStart s)
  rw [trim] at hc
  rw [← hrest]
  cases htrim : trimEnd (trimStart s) with
  | nil =>
    rw [htrim] at hc
    exact nomatch hc
  | cons d ds =>
    rw [htrim] at hc
    exact hc

/-- A trimmed text is trimmed. -/
theorem trim_trim (s : List Char) : trim (trim s) = trim s := by
  have hstart : trimStart (trim s) = trim s := trimStart_eq_self (isBlank_head?_trim s)
  rw [trim, hstart, trim, trimEnd_trimEnd]

/-- A text with no blank at its ends is not trimmed. -/
theorem trim_of_ends {a b : Char} (ha : isBlank a = false) (hb : isBlank b = false)
    (s : List Char) : trim (a :: (s ++ [b])) = a :: (s ++ [b]) := by
  rw [trim, trimStart, List.dropWhile_cons_of_neg (by simp [ha]), ← List.cons_append, trimEnd,
    List.reverse_append, List.reverse_singleton, List.singleton_append,
    List.dropWhile_cons_of_neg (by simp [hb])]
  simp

/-! ### Trimming texts that are joined -/

/-- Blanks before a text are dropped with its own leading ones. -/
theorem trimStart_append_of_blank {a : List Char} (h : isAllBlank a = true) (b : List Char) :
    trimStart (a ++ b) = trimStart b := by
  rw [trimStart, List.dropWhile_append, (dropWhile_isBlank_eq_nil_iff a).2 h]
  rfl

/-- Leading blanks are dropped up to the first other character, whatever follows it. -/
theorem trimStart_append {a : List Char} (h : isAllBlank a = false) (b : List Char) :
    trimStart (a ++ b) = trimStart a ++ b := by
  have hne : a.dropWhile isBlank ≠ [] := fun hnil =>
    Bool.eq_false_iff.1 h ((dropWhile_isBlank_eq_nil_iff a).1 hnil)
  rw [trimStart, List.dropWhile_append, if_neg (by simpa using hne), trimStart]

/-- Whether a text has only blanks is the same from behind. -/
theorem isAllBlank_reverse (s : List Char) : isAllBlank s.reverse = isAllBlank s :=
  List.all_reverse

/-- Blanks behind a text are dropped with its own trailing ones. -/
theorem trimEnd_append_of_blank (a : List Char) {b : List Char} (h : isAllBlank b = true) :
    trimEnd (a ++ b) = trimEnd a := by
  have hreverse := trimStart_append_of_blank ((isAllBlank_reverse b).trans h) a.reverse
  rw [trimEnd, List.reverse_append]
  exact congrArg List.reverse hreverse

/-- Trailing blanks are dropped up to the last other character, whatever precedes it. -/
theorem trimEnd_append (a : List Char) {b : List Char} (h : isAllBlank b = false) :
    trimEnd (a ++ b) = a ++ trimEnd b := by
  have hreverse := trimStart_append ((isAllBlank_reverse b).trans h) a.reverse
  rw [trimEnd, List.reverse_append]
  refine (congrArg List.reverse hreverse).trans ?_
  rw [List.reverse_append, List.reverse_reverse]
  rfl

/-- Blanks before a text are trimmed away. -/
theorem trim_append_of_blank_left {a : List Char} (h : isAllBlank a = true) (b : List Char) :
    trim (a ++ b) = trim b := by
  rw [trim, trimStart_append_of_blank h, trim]

/-- Blanks behind a text are trimmed away. -/
theorem trim_append_of_blank_right (a : List Char) {b : List Char} (h : isAllBlank b = true) :
    trim (a ++ b) = trim a := by
  cases ha : isAllBlank a with
  | true =>
    rw [trim_append_of_blank_left ha, (trim_eq_nil_iff a).2 ha, (trim_eq_nil_iff b).2 h]
  | false => rw [trim, trimStart_append ha, trimEnd_append_of_blank _ h, trim]

/-- Trimming a joined text does nothing where the parts meet. -/
theorem trim_append {a b : List Char} (ha : isAllBlank a = false) (hb : isAllBlank b = false) :
    trim (a ++ b) = trimStart a ++ trimEnd b := by
  rw [trim, trimStart_append ha, trimEnd_append _ hb]

/-- What is dropped at the beginning of a text is blank. -/
theorem exists_eq_append_trimStart (s : List Char) :
    ∃ lead, isAllBlank lead = true ∧ s = lead ++ trimStart s :=
  ⟨s.takeWhile isBlank, List.all_takeWhile, List.takeWhile_append_dropWhile.symm⟩

/-- What is dropped at its end is blank. -/
theorem exists_eq_trimEnd_append (s : List Char) :
    ∃ trail, isAllBlank trail = true ∧ s = trimEnd s ++ trail := by
  obtain ⟨lead, hblank, hlead⟩ := exists_eq_append_trimStart s.reverse
  refine ⟨lead.reverse, (isAllBlank_reverse lead).trans hblank, ?_⟩
  have hs := congrArg List.reverse hlead
  rwa [List.reverse_reverse, List.reverse_append] at hs

/-- Without its trailing blanks a text that has others is its leading blanks and the trimmed text.
-/
theorem exists_trimEnd_eq {s : List Char} (h : isAllBlank s = false) :
    ∃ lead, isAllBlank lead = true ∧ trimEnd s = lead ++ trim s := by
  obtain ⟨lead, hblank, hlead⟩ := exists_eq_append_trimStart s
  refine ⟨lead, hblank, ?_⟩
  have hrest : isAllBlank (trimStart s) = false := (isAllBlank_trimStart s).trans h
  calc trimEnd s = trimEnd (lead ++ trimStart s) := congrArg trimEnd hlead
    _ = lead ++ trim s := trimEnd_append lead hrest

end ChatRelay.Text
