import ChatRelay.Json.Reader
import ChatRelay.Json.Writer
import Mathlib.Data.List.Forall2
import Mathlib.Tactic.FinCases

/-!
# What is written is read

A reading of a text that was written comes to the tree that was meant. `Reads text t` says so of a
text that stands inside of a container, where a comma or the end of the container follows; a number
is over only there. Strings, arrays and objects end with their own last character, and are read
wherever they stand (`EndsItself`).

Main results: a string is read with all of its characters (`endsItself_renderString` with
`stringOf?_pieces`), and arrays and objects with what is read of their items and members
(`endsItself_renderItems`, `endsItself_renderMembers`).
-/

namespace ChatRelay.Json

open Reader

/-! ### Strings -/

/-- The control characters that have an escape of one letter. -/
def shortControls : List Char := ['\x08', '\x0c', '\n', '\r', '\t']

/-- The part of a string as which a written character is read. -/
def pieceOf (c : Char) : Piece :=
  if c.toNat < 0x20 ∧ c ∉ shortControls then .unit c.toNat else .char c

/-- The parts of a string as which a written text is read. -/
def pieces (s : List Char) : List Piece := s.map pieceOf

/-- A code unit that is no half of a pair stands for a character. -/
theorem charsOf?_unit {n : Nat} (h : n < 0xD800) (rest : List Piece) :
    charsOf? (.unit n :: rest) = (charsOf? rest).map (Char.ofNat n :: ·) := by
  have hhigh : ¬(0xD800 ≤ n ∧ n < 0xDC00) := by omega
  have hlow : ¬(0xDC00 ≤ n ∧ n < 0xE000) := by omega
  have hpair : ¬(0xD800 ≤ n ∧ n < 0xE000) := by omega
  cases rest with
  | nil => simp only [charsOf?, if_neg hpair]
  | cons p rest =>
    cases p with
    | char c => simp only [charsOf?, if_neg hpair]
    | unit m => simp only [charsOf?, if_neg hhigh, if_neg hlow]

/-- The pieces in which a text is read are put together to the text. -/
theorem charsOf?_pieces (s : List Char) : charsOf? (pieces s) = some s := by
  induction s with
  | nil => rfl
  | cons c s ih =>
    rw [pieces, List.map_cons, pieceOf]
    split
    next h =>
      have hc : Char.ofNat c.toNat = c := Char.ofNat_toNat c
      rw [charsOf?_unit (by omega)]
      show (charsOf? (pieces s)).map _ = _
      rw [ih, hc]
      rfl
    next =>
      show (charsOf? (pieces s)).map _ = _
      rw [ih]
      rfl

/-- A text is read with all of its characters. -/
theorem stringOf?_pieces (s : List Char) : stringOf? (pieces s) = some (String.ofList s) := by
  rw [stringOf?, charsOf?_pieces]
  rfl

/-- A character is written as an escape of one letter, as an escaped code unit, or as it is. -/
theorem escapedChar_cases (c : Char) :
    (∃ e, escapedChar c = ['\\', e] ∧ e ≠ 'u' ∧ shortEscape? e = some c ∧ pieceOf c = .char c) ∨
      (c.toNat < 0x20 ∧ pieceOf c = .unit c.toNat ∧ escapedChar c = ['\\', 'u', '0', '0',
        Text.hexDigit (c.toNat / 16), Text.hexDigit (c.toNat % 16)]) ∨
      (c ≠ '"' ∧ c ≠ '\\' ∧ ¬c.toNat < 0x20 ∧ escapedChar c = [c] ∧ pieceOf c = .char c) := by
  by_cases hescape : c ∈ '"' :: '\\' :: shortControls
  · refine .inl ?_
    fin_cases hescape <;> exact ⟨_, rfl, by decide, rfl, rfl⟩
  · simp only [shortControls, List.mem_cons, List.not_mem_nil, or_false, not_or] at hescape
    obtain ⟨hquote, hslash, hb, hf, hn, hr, ht⟩ := hescape
    have hlong : escapedChar c =
        if c.toNat < 0x20 then ['\\', 'u'] ++ ['0', '0'] ++ Text.hexByte (UInt8.ofNat c.toNat)
        else [c] := by
      rw [escapedChar, if_neg hquote, if_neg hslash, if_neg hb, if_neg hf, if_neg hn, if_neg hr,
        if_neg ht]
    by_cases hcontrol : c.toNat < 0x20
    · have hbyte : (UInt8.ofNat c.toNat).toNat = c.toNat :=
        UInt8.toNat_ofNat_of_lt (Nat.lt_trans hcontrol (by decide))
      have hpiece : pieceOf c = .unit c.toNat := if_pos ⟨hcontrol, by simp [shortControls, *]⟩
      refine .inr (.inl ⟨hcontrol, hpiece, ?_⟩)
      rw [hlong, if_pos hcontrol, Text.hexByte, hbyte]
      rfl
    · have hpiece : pieceOf c = .char c := if_neg fun h => hcontrol h.1
      exact .inr (.inr ⟨hquote, hslash, hcontrol, hlong.trans (if_neg hcontrol), hpiece⟩)

namespace Reader

variable {stack outer : List Container} {text : List Char} {t : Tree}

/-- A character that may come is read before the rest. -/
theorem readAll?_cons {s u : State} {c : Char} (h : s.read? c = some u) (cs : List Char) :
    s.readAll? (c :: cs) = u.readAll? cs := by
  rw [State.readAll?, List.foldlM_cons, h]
  rfl

/-- A hexadecimal digit is read as its value. -/
theorem hexValue?_hexDigit {n : Nat} (h : n < 16) : Text.hexValue? (Text.hexDigit n) = some n := by
  revert n
  decide

/-- The letter of a short escape is read as its character. -/
theorem read?_escape (isKey : Bool) (ps : List Piece) {c e : Char} (hu : e ≠ 'u')
    (he : shortEscape? e = some c) :
    (State.mk stack (.escape isKey ps)).read? e = some ⟨stack, .string isKey (.char c :: ps)⟩ := by
  rw [State.read?]
  dsimp only
  rw [if_neg hu, he]
  rfl

/-- The last digit of a code unit completes it. -/
theorem read?_lastDigit (isKey : Bool) (ps : List Piece) (unit : Nat) {n : Nat} (h : n < 16) :
    (State.mk stack (.codeUnit isKey ps 0 unit)).read? (Text.hexDigit n) =
      some ⟨stack, .string isKey (.unit (unit * 16 + n) :: ps)⟩ := by
  rw [State.read?]
  dsimp only
  rw [hexValue?_hexDigit h]
  rfl

/-- Any other digit of a code unit leaves the next ones to come. -/
theorem read?_digit (isKey : Bool) (ps : List Piece) (owed unit : Nat) {n : Nat} (h : n < 16) :
    (State.mk stack (.codeUnit isKey ps (owed + 1) unit)).read? (Text.hexDigit n) =
      some ⟨stack, .codeUnit isKey ps owed (unit * 16 + n)⟩ := by
  rw [State.read?]
  dsimp only
  rw [hexValue?_hexDigit h]
  rfl

/-- A character that is not escaped is read as itself. -/
theorem read?_character (isKey : Bool) (ps : List Piece) {c : Char} (hquote : c ≠ '"')
    (hslash : c ≠ '\\') (hcontrol : ¬c.toNat < 0x20) :
    (State.mk stack (.string isKey ps)).read? c = some ⟨stack, .string isKey (.char c :: ps)⟩ := by
  rw [State.read?]
  dsimp only
  rw [if_neg hquote, if_neg hslash, if_neg hcontrol]

/-- A written character is read as its part of the string. -/
theorem readAll?_escapedChar (isKey : Bool) (ps : List Piece) (c : Char) (cs : List Char) :
    (State.mk stack (.string isKey ps)).readAll? (escapedChar c ++ cs) =
      (State.mk stack (.string isKey (pieceOf c :: ps))).readAll? cs := by
  have hslash : (State.mk stack (.string isKey ps)).read? '\\' =
      some ⟨stack, .escape isKey ps⟩ := rfl
  rcases escapedChar_cases c with ⟨e, htext, hu, he, hpiece⟩ | ⟨hcontrol, hpiece, htext⟩ |
    ⟨hquote, hnot, hcontrol, htext, hpiece⟩
  · rw [htext, hpiece]
    exact (readAll?_cons hslash _).trans (readAll?_cons (read?_escape isKey ps hu he) cs)
  · have hmark : (State.mk stack (.escape isKey ps)).read? 'u' =
        some ⟨stack, .codeUnit isKey ps 3 0⟩ := rfl
    have hzero : (State.mk stack (.codeUnit isKey ps 3 0)).read? '0' =
        some ⟨stack, .codeUnit isKey ps 2 0⟩ := rfl
    have hzero' : (State.mk stack (.codeUnit isKey ps 2 0)).read? '0' =
        some ⟨stack, .codeUnit isKey ps 1 0⟩ := rfl
    have hunit : (0 * 16 + c.toNat / 16) * 16 + c.toNat % 16 = c.toNat := by omega
    rw [htext, hpiece]
    show State.readAll? _ ('\\' :: 'u' :: '0' :: '0' :: _ :: _ :: cs) = _
    rw [readAll?_cons hslash, readAll?_cons hmark, readAll?_cons hzero, readAll?_cons hzero',
      readAll?_cons (read?_digit isKey ps 0 0 (by omega)),
      readAll?_cons (read?_lastDigit isKey ps _ (by omega)), hunit]
  · rw [htext, hpiece]
    exact readAll?_cons (read?_character isKey ps hquote hnot hcontrol) cs

/-- An escaped text within a string is read as its pieces. -/
theorem readAll?_escaped (isKey : Bool) (ps : List Piece) (s cs : List Char) :
    (State.mk stack (.string isKey ps)).readAll? (s.flatMap escapedChar ++ cs) =
      (State.mk stack (.string isKey ((pieces s).reverse ++ ps))).readAll? cs := by
  induction s generalizing ps with
  | nil => rfl
  | cons c s ih =>
    rw [List.flatMap_cons, List.append_assoc, readAll?_escapedChar, ih, pieces, pieces,
      List.map_cons, List.reverse_cons, List.append_assoc, List.singleton_append]

/-- A written string is read up to its end. -/
theorem readAll?_renderString (isKey : Bool) (s cs : List Char) :
    (State.mk stack (.string isKey [])).readAll? (s.flatMap escapedChar ++ '"' :: cs) =
      (stringEnded stack isKey (pieces s).reverse).bind fun u => u.readAll? cs := by
  rw [readAll?_escaped, List.append_nil, State.readAll?, List.foldlM_cons]
  rfl

end Reader

/-! ### Texts of values -/

/-- The characters that may follow a value inside of a container. -/
def isMark (c : Char) : Bool :=
  c = ',' || c = ']' || c = '}'

/-- The text is read as a value with a tree, inside of a container and before a mark. -/
structure Reads (text : List Char) (t : Tree) : Prop where
  /-- What the text begins with is no end of an array. -/
  begins : ∃ c rest, text = c :: rest ∧ isSpace c = false ∧ c ≠ ']'
  readAll : ∀ stack c, stack ≠ [] → isMark c = true → ∀ cs,
    (State.mk stack .value).readAll? (text ++ c :: cs) =
      (completed stack t).bind fun s => s.readAll? (c :: cs)

/-- The text is read as a value with a tree, wherever it stands. -/
structure EndsItself (text : List Char) (t : Tree) : Prop where
  begins : ∃ c rest, text = c :: rest ∧ isSpace c = false ∧ c ≠ ']'
  readAll : ∀ stack cs, (State.mk stack .value).readAll? (text ++ cs) =
    (completed stack t).bind fun s => s.readAll? cs

/-- A text that ends itself is read whatever follows it. -/
theorem EndsItself.reads {text : List Char} {t : Tree} (h : EndsItself text t) : Reads text t where
  begins := h.begins
  readAll stack c _ _ cs := h.readAll stack (c :: cs)

/-- A text that ends itself is a JSON text. -/
theorem EndsItself.parse? {text : List Char} {t : Tree} (h : EndsItself text t) :
    Tree.parse? text = some t := by
  have hread := h.readAll [] []
  rw [List.append_nil] at hread
  rw [Tree.parse?, State.initial, hread]
  rfl

/-- A value may come where the first item of an array may come. -/
theorem Reads.readAll_firstItem {text : List Char} {t : Tree} (h : Reads text t)
    (stack : List Container) (cs : List Char) :
    (State.mk stack .firstItem).readAll? (text ++ cs) =
      (State.mk stack .value).readAll? (text ++ cs) := by
  obtain ⟨c, rest, rfl, hspace, hend⟩ := h.begins
  have hread : (State.mk stack .firstItem).read? c = (State.mk stack .value).read? c := by
    unfold State.read?
    dsimp only
    rw [hspace, if_neg hend]
    rfl
  rw [List.cons_append, State.readAll?, State.readAll?, List.foldlM_cons, List.foldlM_cons, hread]

/-- A string that is written is read as its pieces, and ends itself. -/
theorem endsItself_renderString (s : List Char) :
    EndsItself (renderString s) (.string (pieces s)) where
  begins := ⟨'"', _, rfl, rfl, by decide⟩
  readAll stack cs := by
    have hquote : (State.mk stack .value).read? '"' = some ⟨stack, .string false []⟩ := rfl
    rw [renderString, List.cons_append, List.cons_append, List.append_assoc,
      Reader.readAll?_cons hquote, List.singleton_append, readAll?_renderString]
    show (completed stack (.string (pieces s).reverse.reverse)).bind _ = _
    rw [List.reverse_reverse]

/-! ### Arrays -/

/-- Between two texts there is a comma. -/
theorem commaSeparated_cons_cons (a b : List Char) (texts : List (List Char)) :
    commaSeparated (a :: b :: texts) = a ++ ',' :: commaSeparated (b :: texts) := by
  rw [commaSeparated]
  nofun

/-- The items of an array are read one after another, up to its end. -/
theorem readAll?_items {texts : List (List Char)} {ts : List Tree} (h : List.Forall₂ Reads texts ts)
    (hne : texts ≠ []) (done : List Tree) (outer : List Container) (cs : List Char) :
    (State.mk (.array done :: outer) .value).readAll? (commaSeparated texts ++ ']' :: cs) =
      (completed outer (.array (done.reverse ++ ts))).bind fun s => s.readAll? cs := by
  induction h generalizing done with
  | nil => exact absurd rfl hne
  | @cons text t texts ts htext hrest ih =>
    have hstack : Container.array done :: outer ≠ [] := List.cons_ne_nil _ _
    cases hrest with
    | nil =>
      have hlist : done.reverse ++ [t] = (t :: done).reverse := List.reverse_cons.symm
      rw [commaSeparated, htext.readAll _ ']' hstack rfl, hlist]
      rfl
    | cons hnext hlast =>
      have hnexts := ih (List.cons_ne_nil _ _) (t :: done)
      rw [List.reverse_cons, List.append_assoc, List.singleton_append] at hnexts
      rw [commaSeparated_cons_cons, List.append_assoc, List.cons_append,
        htext.readAll _ ',' hstack rfl]
      exact hnexts

/-- An array is read with what its items are read as. -/
theorem endsItself_renderItems {texts : List (List Char)} {ts : List Tree}
    (h : List.Forall₂ Reads texts ts) : EndsItself (renderItems texts) (.array ts) where
  begins := ⟨'[', _, rfl, rfl, by decide⟩
  readAll stack cs := by
    have hopen : (State.mk stack .value).read? '[' = some ⟨.array [] :: stack, .firstItem⟩ := rfl
    rw [renderItems, List.cons_append, List.cons_append, List.append_assoc, readAll?_cons hopen,
      List.singleton_append]
    cases h with
    | nil => rfl
    | @cons text t texts ts htext hrest =>
      have hfirst : (State.mk (.array [] :: stack) .firstItem).readAll?
            (commaSeparated (text :: texts) ++ ']' :: cs) =
          (State.mk (.array [] :: stack) .value).readAll?
            (commaSeparated (text :: texts) ++ ']' :: cs) := by
        cases texts with
        | nil => exact htext.readAll_firstItem _ _
        | cons next nexts =>
          rw [commaSeparated_cons_cons, List.append_assoc]
          exact htext.readAll_firstItem _ _
      rw [hfirst]
      exact readAll?_items (.cons htext hrest) (List.cons_ne_nil _ _) [] stack cs

/-! ### Objects -/

/-- A written member is read as a key and a tree. -/
structure ReadsMember (m : List Char × List Char) (n : List Piece × Tree) : Prop where
  key_eq : n.1 = pieces m.1
  value : Reads m.2 n.2

/-- The text of a member. -/
def memberText (m : List Char × List Char) : List Char :=
  renderString m.1 ++ ':' :: m.2

/-- A member is read up to the mark after it. -/
theorem ReadsMember.readAll {m : List Char × List Char} {n : List Piece × Tree}
    (h : ReadsMember m n) {mode : Mode}
    (hmode : ∀ stack, (State.mk stack mode).read? '"' = some ⟨stack, .string true []⟩)
    (done : List (List Piece × Tree)) (outer : List Container) {c : Char} (hc : isMark c = true)
    (cs : List Char) :
    (State.mk (.object done :: outer) mode).readAll? (memberText m ++ c :: cs) =
      (State.mk (.object (n :: done) :: outer) .separator).readAll? (c :: cs) := by
  obtain ⟨key, tree⟩ := n
  obtain ⟨hkey, hvalue⟩ := h
  cases hkey
  have htext : memberText m ++ c :: cs =
      '"' :: (m.1.flatMap escapedChar ++ '"' :: ':' :: (m.2 ++ c :: cs)) := by
    simp [memberText, renderString]
  have hcolon : (State.mk (.member done (pieces m.1) :: outer) .colon).read? ':' =
      some ⟨.member done (pieces m.1) :: outer, .value⟩ := rfl
  rw [htext, readAll?_cons (hmode _), readAll?_renderString]
  show (State.mk (.member done (pieces m.1).reverse.reverse :: outer) .colon).readAll? _ = _
  rw [List.reverse_reverse, readAll?_cons hcolon, hvalue.readAll _ c (List.cons_ne_nil _ _) hc]
  rfl

/-- The members of an object are read one after another, up to its end. -/
theorem readAll?_members {ms : List (List Char × List Char)} {ns : List (List Piece × Tree)}
    (h : List.Forall₂ ReadsMember ms ns) (hne : ms ≠ []) {mode : Mode}
    (hmode : ∀ stack, (State.mk stack mode).read? '"' = some ⟨stack, .string true []⟩)
    (done : List (List Piece × Tree)) (outer : List Container) (cs : List Char) :
    (State.mk (.object done :: outer) mode).readAll?
        (commaSeparated (ms.map memberText) ++ '}' :: cs) =
      (completed outer (.object (done.reverse ++ ns))).bind fun s => s.readAll? cs := by
  induction h generalizing done mode with
  | nil => exact absurd rfl hne
  | @cons m n ms ns hm hrest ih =>
    cases hrest with
    | nil =>
      have hlist : done.reverse ++ [n] = (n :: done).reverse := List.reverse_cons.symm
      rw [List.map_singleton, commaSeparated, hm.readAll hmode done outer rfl, hlist]
      rfl
    | cons hnext hlast =>
      have hcomma : (State.mk (.object (n :: done) :: outer) .separator).read? ',' =
          some ⟨.object (n :: done) :: outer, .key⟩ := rfl
      have hkey (stack : List Container) : (State.mk stack .key).read? '"' =
          some ⟨stack, .string true []⟩ := rfl
      have hnexts := ih (List.cons_ne_nil _ _) hkey (n :: done)
      rw [List.reverse_cons, List.append_assoc, List.singleton_append] at hnexts
      rw [List.map_cons, List.map_cons, commaSeparated_cons_cons, List.append_assoc,
        List.cons_append, hm.readAll hmode done outer rfl, readAll?_cons hcomma]
      exact hnexts

/-- An object is read with its keys and what its values are read as. -/
theorem endsItself_renderMembers {ms : List (List Char × List Char)}
    {ns : List (List Piece × Tree)} (h : List.Forall₂ ReadsMember ms ns) :
    EndsItself (renderMembers ms) (.object ns) where
  begins := ⟨'{', _, rfl, rfl, by decide⟩
  readAll stack cs := by
    have hopen : (State.mk stack .value).read? '{' = some ⟨.object [] :: stack, .firstKey⟩ := rfl
    rw [renderMembers, List.cons_append, List.cons_append, List.append_assoc, readAll?_cons hopen,
      List.singleton_append]
    cases h with
    | nil => rfl
    | cons hm hrest =>
      exact readAll?_members (.cons hm hrest) (List.cons_ne_nil _ _) (fun _ => rfl) [] stack cs

end ChatRelay.Json
