import ChatRelay.Proofs.Json.Outline

/-!
# What completes a text

An array or an object never completes what has begun before it (`parse?_append_eq_none`). After a
text that ends inside of a container, that container stays open. After a text that ends inside of a
string, the strings of the one reading are what lies between the strings of the other, so that the
end of the one is never the end of the other. Nor does the mark at the end of a stream complete
anything (`parse?_append_doneMark`).
-/

namespace ChatRelay.Json

namespace Reader

variable {s u : State} {o : Outline} {stack : List Container} {c : Char}

/-! ### What may not come -/

/-- A word goes on with its own letters. -/
theorem read?_word {rest : List Char} {t : Tree} (hletters : ∀ d ∈ rest, d ∈ wordLetters)
    (hc : c ∉ wordLetters) : (State.mk stack (.word rest t)).read? c = none := by
  cases rest with
  | nil => rfl
  | cons w rest =>
    have hw : c ≠ w := fun h => hc (h ▸ hletters w List.mem_cons_self)
    exact if_neg hw

/-- Outside of strings a backslash never comes, nor does a letter that occurs nowhere. -/
theorem State.At.read?_foreign (h : s.At o) (hphase : o.phase = .outside)
    (hc : c = '\\' ∨ c = 'D') : s.read? c = none := by
  obtain ⟨stack, m⟩ := s
  obtain ⟨rfl, hletters, -⟩ := h
  have hseparated (outer : List Container) : separated outer c = none := by
    rcases hc with rfl | rfl <;> cases outer with
    | nil => rfl
    | cons container outer => cases container <;> rfl
  cases m with
  | value | firstItem | key | firstKey | colon | finished t => rcases hc with rfl | rfl <;> rfl
  | separator => exact hseparated stack
  | word rest t => exact read?_word (hletters rest t rfl) (by rcases hc with rfl | rfl <;> decide)
  | number n =>
    have hpush : n.push? c = none := by
      rcases hc with rfl | rfl <;> exact push?_eq_none n rfl (by decide)
    have hspace : isSpace c = false := by
      rcases hc with rfl | rfl <;> rfl
    unfold State.read?
    dsimp only
    rw [hpush]
    cases stack with
    | nil => simp [hspace]
    | cons container outer => simp [hseparated]
  | string | escape | codeUnit => exact nomatch hphase

/-- A bracket begins nothing after a value outside of all containers, nor inside of an escape. -/
theorem State.At.read?_bracket (h : s.At o)
    (hplace : o.phase = .outside ∧ s.stack = [] ∨ o.phase ≠ .outside ∧ o.phase ≠ .string)
    (hc : c = '[' ∨ c = '{') : s.read? c = none := by
  obtain ⟨stack, m⟩ := s
  obtain ⟨rfl, hletters, hstarted⟩ := h
  rcases hplace with ⟨hphase, rfl⟩ | ⟨houtside, hstring⟩
  · cases m with
    | word rest t => exact read?_word (hletters rest t rfl) (by rcases hc with rfl | rfl <;> decide)
    | number n =>
      have hpush : n.push? c = none :=
        push?_of_mem_marks n (by rcases hc with rfl | rfl <;> decide)
      have hspace : isSpace c = false := by
        rcases hc with rfl | rfl <;> rfl
      unfold State.read?
      dsimp only
      rw [hpush]
      simp [hspace]
    | finished t => rcases hc with rfl | rfl <;> rfl
    | string | escape | codeUnit => exact nomatch hphase
    | value | firstItem | key | firstKey | colon | separator => exact (hstarted rfl).elim
  · cases m with
    | escape | codeUnit => rcases hc with rfl | rfl <;> rfl
    | string => exact absurd rfl hstring
    | _ => exact absurd rfl houtside

/-! ### Whole texts -/

/-- A text is over outside of strings and of containers. -/
theorem outline_of_result? {t : Tree} (h : s.result? = some t) : s.outline = ⟨.outside, 0⟩ := by
  obtain ⟨stack, m⟩ := s
  cases stack with
  | cons container outer => exact nomatch h
  | nil =>
    cases m with
    | number | finished => rfl
    | _ => exact nomatch h

/-- A value outside of all containers stays outside of them while it is read. -/
theorem inValue_of_readAll? {p : Tree → Prop} (hnumber : ∀ l, p (.number l))
    (hstring : ∀ pieces, p (.string pieces)) {s u : State} {text : List Char}
    (h : s.stack = [] ∧ s.mode.InValue p) (hread : s.readAll? text = some u) :
    u.stack = [] ∧ u.mode.InValue p := by
  induction text generalizing s with
  | nil =>
    cases hread
    exact h
  | cons c text ih =>
    obtain ⟨v, hv, hrest⟩ := Option.bind_eq_some_iff.1 hread
    obtain ⟨stack, m⟩ := s
    obtain ⟨rfl, hm⟩ := h
    exact ih (hm.read? hnumber hstring hv) hrest

/-- What begins with no bracket is no array or object, and lies in no container. -/
theorem inValue_of_begun {p : Tree → Prop} (hnull : p .null) (hbool : ∀ b, p (.bool b)) {c : Char}
    (hc : c ≠ '[' ∧ c ≠ '{') {s : State} (h : begun [] c = some s) :
    s.stack = [] ∧ s.mode.InValue p := by
  unfold begun at h
  split at h
  case h_1 => exact absurd rfl hc.2
  case h_2 => exact absurd rfl hc.1
  case h_9 =>
    obtain ⟨d, -, rfl⟩ := Option.map_eq_some_iff.1 h
    exact ⟨rfl, trivial⟩
  all_goals cases h
  · exact ⟨rfl, trivial⟩
  · exact ⟨rfl, hnull⟩
  · exact ⟨rfl, hbool true⟩
  · exact ⟨rfl, hbool false⟩
  · exact ⟨rfl, trivial⟩
  · exact ⟨rfl, trivial⟩

/-- A text that does not begin with a blank begins a value with its first character. -/
theorem exists_begun_of_readAll? (hc : isSpace c = false) {text : List Char}
    (h : State.initial.readAll? (c :: text) = some s) :
    ∃ v, begun [] c = some v ∧ v.readAll? text = some s := by
  obtain ⟨v, hv, hrest⟩ := Option.bind_eq_some_iff.1 h
  refine ⟨v, ?_, hrest⟩
  rw [← hv, State.read?]
  exact (if_neg (Bool.eq_false_iff.1 hc)).symm

/-- A reading that has begun is inside of something that its text tells. -/
theorem exists_at_of_readAll? (hc : isSpace c = false) {text : List Char}
    (h : State.initial.readAll? (c :: text) = some s) : ∃ o, s.At o := by
  obtain ⟨v, hbegun, hrest⟩ := exists_begun_of_readAll? hc h
  exact ⟨_, (at_of_begun hbegun).readAll? hrest⟩

/-- One of two readings is inside of a string and the other outside of one. -/
def Phase.Opposite (p q : Phase) : Prop :=
  p = .outside ∧ q = .string ∨ p = .string ∧ q = .outside

/-- Opposite phases stay opposite at any character but a backslash. -/
theorem Phase.Opposite.after {p q : Phase} (h : p.Opposite q) (hc : c ≠ '\\') :
    (p.after c).Opposite (q.after c) := by
  rcases h with ⟨rfl, rfl⟩ | ⟨rfl, rfl⟩ <;> by_cases hquote : c = '"' <;>
    simp [Phase.after, Phase.Opposite, hquote, hc]

/-- Two readings of one text stay opposite, since neither reads a backslash outside of its strings.
-/
theorem opposite_foldl {q : Outline} {v w : State} {text : List Char} (hs : s.At o) (hu : u.At q)
    (h : o.phase.Opposite q.phase) (hv : s.readAll? text = some v) (hw : u.readAll? text = some w) :
    (text.foldl Outline.after o).phase.Opposite (text.foldl Outline.after q).phase := by
  induction text generalizing s u o q with
  | nil => exact h
  | cons c text ih =>
    obtain ⟨s', hs', hv⟩ := Option.bind_eq_some_iff.1 hv
    obtain ⟨u', hu', hw⟩ := Option.bind_eq_some_iff.1 hw
    have hc : c ≠ '\\' := by
      intro hc
      rcases h with ⟨houtside, -⟩ | ⟨-, houtside⟩
      · rw [hs.read?_foreign houtside (.inl hc)] at hs'
        exact nomatch hs'
      · rw [hu.read?_foreign houtside (.inl hc)] at hu'
        exact nomatch hu'
    exact ih (hs.read? hs') (hu.read? hu') (h.after hc) hv hw

/-- After its bracket, an array or an object is read on its own as inside of one container. -/
theorem exists_readAll?_of_parse? {b : Char} (hb : b = '[' ∨ b = '{') {text : List Char} {t : Tree}
    (h : Tree.parse? (b :: text) = some t) :
    ∃ v w : State, v.At ⟨.outside, 1⟩ ∧ v.readAll? text = some w ∧
      text.foldl Outline.after ⟨.outside, 1⟩ = ⟨.outside, 0⟩ := by
  obtain ⟨w, hw, hend⟩ := Option.bind_eq_some_iff.1 h
  obtain ⟨v, hv, hw⟩ := Option.bind_eq_some_iff.1 hw
  have hat : v.At ⟨.outside, 1⟩ := by
    rcases hb with rfl | rfl <;>
    · cases hv
      exact ⟨rfl, nofun, nofun⟩
  exact ⟨v, w, hat, hw, (hat.readAll? hw).outline.symm.trans (outline_of_result? hend)⟩

/-- A reading that has begun is not over after an array or an object. -/
theorem State.At.result?_bracket (h : s.At o) {b : Char} (hb : b = '[' ∨ b = '{')
    {text : List Char} {t : Tree} (ht : Tree.parse? (b :: text) = some t) :
    (s.readAll? (b :: text)).bind State.result? = none := by
  refine Option.eq_none_iff_forall_ne_some.2 fun t' ht' => ?_
  obtain ⟨u, hu, hend⟩ := Option.bind_eq_some_iff.1 ht'
  obtain ⟨s', hs', hu⟩ := Option.bind_eq_some_iff.1 hu
  obtain ⟨v, w, hv, hw, hclosed⟩ := exists_readAll?_of_parse? hb ht
  have hat : s'.At (o.after b) := h.read? hs'
  have hover : text.foldl Outline.after (o.after b) = ⟨.outside, 0⟩ :=
    (hat.readAll? hu).outline.symm.trans (outline_of_result? hend)
  obtain ⟨phase, depth⟩ := o
  cases phase with
  | outside =>
    -- The containers that were open before the bracket are open after the text.
    have hdepth : depth = s.stack.length := congrArg Outline.depth h.outline.symm
    have hopen : s.stack ≠ [] := by
      intro hnil
      rw [h.read?_bracket (.inl ⟨rfl, hnil⟩) hb] at hs'
      exact nomatch hs'
    have hbracket : (Outline.mk .outside depth).after b = ⟨.outside, 1 + depth⟩ := by
      rw [Int.add_comm]
      rcases hb with rfl | rfl <;> rfl
    rw [hbracket, foldl_after_add, hclosed] at hover
    have hzero : (0 : Int) + depth = 0 := congrArg Outline.depth hover
    have hlength : 0 < s.stack.length := List.length_pos_iff.2 hopen
    omega
  | string =>
    have hbracket : (Phase.outside).Opposite ((Outline.mk .string depth).after b).phase := by
      rcases hb with rfl | rfl <;> exact .inl ⟨rfl, rfl⟩
    have hopposite := opposite_foldl hv hat hbracket hw hu
    rw [hclosed, hover] at hopposite
    rcases hopposite with ⟨-, hfalse⟩ | ⟨hfalse, -⟩ <;> exact nomatch hfalse
  | escape | codeUnit =>
    rw [h.read?_bracket (.inr ⟨nofun, nofun⟩) hb] at hs'
    exact nomatch hs'

/-- A reading that has begun is not over after the mark that ends a stream. -/
theorem State.At.result?_doneMark (h : s.At o) :
    (s.readAll? "[DONE]".toList).bind State.result? = none := by
  have htext : "[DONE]".toList = ['[', 'D', 'O', 'N', 'E', ']'] := rfl
  rw [htext]
  refine Option.eq_none_iff_forall_ne_some.2 fun t ht => ?_
  obtain ⟨u, hu, hend⟩ := Option.bind_eq_some_iff.1 ht
  obtain ⟨v, hv, hw⟩ := Option.bind_eq_some_iff.1 hu
  have hat : v.At (o.after '[') := h.read? hv
  obtain ⟨phase, depth⟩ := o
  cases phase with
  | outside =>
    obtain ⟨w, hw, -⟩ := Option.bind_eq_some_iff.1 hw
    rw [hat.read?_foreign rfl (.inr rfl)] at hw
    exact nomatch hw
  | string =>
    have hover := (h.readAll? hu).outline.symm.trans (outline_of_result? hend)
    exact nomatch congrArg Outline.phase hover
  | escape | codeUnit =>
    rw [h.read?_bracket (.inr ⟨nofun, nofun⟩) (.inl rfl)] at hv
    exact nomatch hv

end Reader

open Reader

variable {c b : Char} {a text : List Char} {t : Tree}

/-- An array or an object completes nothing that has begun before it. -/
theorem parse?_append_eq_none (hc : isSpace c = false) (hb : b = '[' ∨ b = '{')
    (h : Tree.parse? (b :: text) = some t) : Tree.parse? (c :: a ++ b :: text) = none := by
  rw [Tree.parse?, State.readAll_append, Option.bind_assoc]
  refine Option.bind_eq_none_iff.2 fun s hs => ?_
  obtain ⟨o, ho⟩ := exists_at_of_readAll? hc hs
  exact ho.result?_bracket hb h

/-- The mark that ends a stream completes nothing either. -/
theorem parse?_append_doneMark (hc : isSpace c = false) :
    Tree.parse? (c :: a ++ "[DONE]".toList) = none := by
  rw [Tree.parse?, State.readAll_append, Option.bind_assoc]
  refine Option.bind_eq_none_iff.2 fun s hs => ?_
  obtain ⟨o, ho⟩ := exists_at_of_readAll? hc hs
  exact ho.result?_doneMark

/-- An object begins with a bracket. -/
theorem bracket_of_parse?_object {ms : List (List Piece × Tree)} (hc : isSpace c = false)
    (h : Tree.parse? (c :: text) = some (.object ms)) : c = '[' ∨ c = '{' := by
  by_cases hbracket : c = '[' ∨ c = '{'
  · exact hbracket
  obtain ⟨s, hs, hend⟩ := Option.bind_eq_some_iff.1 h
  obtain ⟨v, hv, hrest⟩ := exists_begun_of_readAll? hc hs
  -- The value lies in no container, so it is none.
  have hvalue := inValue_of_readAll? (p := fun t => ∀ ms, t ≠ .object ms) (fun _ => nofun)
    (fun _ => nofun) (inValue_of_begun nofun (fun _ => nofun) (not_or.1 hbracket) hv) hrest
  obtain ⟨stack, m⟩ := s
  obtain ⟨rfl, hm⟩ := hvalue
  cases m with
  | number n =>
    have hnumber : (if n.canEnd then some (Tree.number n.literal) else none) = some (.object ms) :=
      hend
    split_ifs at hnumber
    cases hnumber
  | finished t =>
    cases hend
    exact absurd rfl (hm ms)
  | _ => exact nomatch hend

end ChatRelay.Json
