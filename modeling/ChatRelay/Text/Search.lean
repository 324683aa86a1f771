/-!
# Searching text

The first occurrence of a word in a text, as the text before it and the text after it. The parts
and the word make up the text again (`cutAt?_eq_some`).
-/

namespace ChatRelay.Text

/-- What follows the word, when the text begins with it. -/
def after? : List Char → List Char → Option (List Char)
  | [], s => some s
  | _ :: _, [] => none
  | w :: ws, c :: cs => if w = c then after? ws cs else none

/-- The text before and after the first occurrence of a word. -/
def cutAt? (word : List Char) : List Char → Option (List Char × List Char)
  | [] => (after? word []).map ([], ·)
  | c :: cs =>
    match after? word (c :: cs) with
    | some rest => some ([], rest)
    | none => (cutAt? word cs).map fun (before, rest) => (c :: before, rest)

/-- What is after a word with which a text begins is the rest of it. -/
theorem after?_eq_some_iff {word s rest : List Char} :
    after? word s = some rest ↔ s = word ++ rest := by
  fun_induction after? word s with
  | case1 => simp
  | case2 => simp
  | case3 w ws cs ih => simp [ih]
  | case4 w ws c cs h => simp [Ne.symm h]

/-- A text that is cut at a word is what is before it, the word, and what is after it. -/
theorem cutAt?_eq_some {word s before rest : List Char} (h : cutAt? word s = some (before, rest)) :
    s = before ++ word ++ rest := by
  fun_induction cutAt? word s generalizing before with
  | case1 =>
    obtain ⟨r, hr, he⟩ := Option.map_eq_some_iff.1 h
    cases he
    simpa using after?_eq_some_iff.1 hr
  | case2 c cs r hr =>
    cases h
    simpa using after?_eq_some_iff.1 hr
  | case3 c cs hr ih =>
    obtain ⟨⟨b, r⟩, hb, he⟩ := Option.map_eq_some_iff.1 h
    cases he
    simp [ih hb]

end ChatRelay.Text
