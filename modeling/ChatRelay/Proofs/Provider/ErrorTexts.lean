import ChatRelay.Proofs.Json.Numbers
import ChatRelay.Proofs.Provider.Joining

/-!
# Error texts that are read as JSON

The text of an error is looked for in a body that may be JSON, and a body that is not JSON is its
own text. A message that has already been taken out of an error goes the same way, and comes out as
it is only if nothing else is read in it (`errorTextOfBody_eq_self_iff`). A string inside of a JSON
text is shorter than the text, and no part of an object is written as the object's text
(`render_ne_of_member?`), so a message that is a JSON string, or an object with an error or a
message in it, always changes.
-/

namespace ChatRelay

open Json (Value)

namespace Provider

variable {m : List Char} {v e : Value} {key : String}

/-- The text of an error is a string in it, or its JSON text if it has none. -/
theorem errorText_cases (e : Value) :
    (∃ s, e.asString? = some s ∧ errorText e = s.toList) ∨
      (∃ s, (e.member? "message").bind Value.asString? = some s ∧ errorText e = s.toList) ∨
      (e.asString? = none ∧ (e.member? "message").bind Value.asString? = none ∧
        errorText e = e.render) := by
  cases e with
  | string s => exact .inl ⟨s, rfl, rfl⟩
  | object members =>
    cases hmessage : ((Value.object members).member? "message").bind Value.asString? with
    | some s => exact .inr (.inl ⟨s, rfl, by simp only [errorText, hmessage]⟩)
    | none => exact .inr (.inr ⟨rfl, rfl, by simp only [errorText, hmessage]⟩)
  | null | bool | number | array => exact .inr (.inr ⟨rfl, rfl, rfl⟩)

/-! ### What a JSON text holds is not the text -/

/-- What is read of a trimmed text is no heavier than the text is long. -/
theorem weight_le_of_parse?_trim (h : Value.parse? (Text.trim m) = some v) : v.weight ≤ m.length :=
  (Value.weight_le_of_parse? h).trans (Text.trim_isInfix m).length_le

/-- A string that is not heavier than a value is no text of the value. -/
theorem ne_of_asString? {s : String} (h : Value.parse? (Text.trim m) = some v)
    (hs : e.asString? = some s) (hle : e.weight ≤ v.weight) : s.toList ≠ m := by
  intro heq
  have hlength : s.toList.length + 1 ≤ m.length := by
    rw [← Value.weight_of_asString? hs]
    exact hle.trans (weight_le_of_parse?_trim h)
  rw [heq] at hlength
  exact Nat.lt_irrefl _ hlength

/-- A string that is a member of a value is no heavier than the value. -/
theorem weight_le_of_member?_bind {s : String}
    (h : (v.member? key).bind Value.asString? = some s) :
    ∃ e : Value, e.asString? = some s ∧ e.weight ≤ v.weight := by
  obtain ⟨e, he, hs⟩ := Option.bind_eq_some_iff.1 h
  exact ⟨e, hs, (Value.weight_lt_of_member? he).le⟩

/-- Nothing is trimmed of what an array or an object is written as. -/
theorem trim_render (h : v.IsContainer) : Text.trim v.render = v.render := by
  cases v with
  | array | object => exact Text.trim_of_ends rfl rfl _
  | _ => exact h.elim

/-- A text that begins with no blank still begins with the same character when it is trimmed. -/
theorem exists_trim_eq_cons {c : Char} (hc : Text.isBlank c = false) (rest : List Char) :
    ∃ rest', Text.trim (c :: rest) = c :: rest' := by
  have hstart : Text.trimStart (c :: rest) = c :: rest := Text.trimStart_eq_self fun d hd => by
    cases hd
    exact hc
  have hnil : Text.trim (c :: rest) ≠ [] := fun h => by
    rw [Text.trim_eq_nil_iff, Text.isAllBlank, List.all_cons, hc] at h
    exact Bool.false_ne_true h
  obtain ⟨d, rest', htrim⟩ := List.exists_cons_of_ne_nil hnil
  have hprefix : d :: rest' <+: c :: rest := by
    rw [← htrim, Text.trim, hstart]
    exact Text.trimEnd_isPrefix _
  rw [htrim, (List.cons_prefix_cons.1 hprefix).1]
  exact ⟨rest', rfl⟩

/-- A text of an object is not what a value inside of the object is written as. -/
theorem render_ne_of_member? (h : Value.parse? (Text.trim m) = some v)
    (he : v.member? key = some e) : e.render ≠ m := by
  rintro rfl
  obtain ⟨c, rest, hrender, hc, hcontainer | hbracket⟩ := e.exists_render_eq_cons
  · obtain ⟨t, ht, hweight⟩ := hcontainer.exists_parse?_render
    rw [trim_render hcontainer] at h
    obtain ⟨t', ht', hv⟩ := Option.bind_eq_some_iff.1 h
    cases ht.symm.trans ht'
    have hvalue : v.weight ≤ t.weight := Value.weight_le_of_ofTreeWithin? t hv
    have hmember : e.weight < v.weight := Value.weight_lt_of_member? he
    omega
  · -- The text of an object begins with a bracket.
    obtain ⟨rest', htrim⟩ := exists_trim_eq_cons hc rest
    obtain ⟨o, rfl⟩ : ∃ o, v = .object o := by
      cases v with
      | object o => exact ⟨o, rfl⟩
      | _ => exact nomatch he
    rw [hrender, htrim] at h
    obtain ⟨ms, hms⟩ := Delta.exists_object_of_parse? h
    have hfirst := Json.bracket_of_parse?_object (Delta.isSpace_of_isBlank_eq_false hc) hms
    exact absurd hfirst (not_or.2 hbracket)

/-! ### Messages that stay as they are -/

/-- Nothing but itself is read in a text: if it is JSON, it is what its value is written as, and the
value is no string and has neither an error nor a message in it. -/
def ReadsAsItself (m : List Char) : Prop :=
  ∀ v, Value.parse? (Text.trim m) = some v →
    v.render = m ∧ v.asString? = none ∧ v.member? "error" = none ∧
      (v.member? "message").bind Value.asString? = none

/-- The text of an error in a body is the body itself exactly if nothing else is read in it. -/
theorem errorTextOfBody_eq_self_iff (m : List Char) : errorTextOfBody m = m ↔ ReadsAsItself m := by
  unfold errorTextOfBody
  constructor
  · intro hself v hv
    rw [hv] at hself
    dsimp only at hself
    cases herror : v.member? "error" with
    | some e =>
      have hle : e.weight ≤ v.weight := (Value.weight_lt_of_member? herror).le
      rw [herror, Option.getD_some] at hself
      rcases errorText_cases e with ⟨s, hs, htext⟩ | ⟨s, hs, htext⟩ | ⟨-, -, htext⟩
      · exact absurd (htext.symm.trans hself) (ne_of_asString? hv hs hle)
      · obtain ⟨e', hs', hle'⟩ := weight_le_of_member?_bind hs
        exact absurd (htext.symm.trans hself) (ne_of_asString? hv hs' (hle'.trans hle))
      · exact absurd (htext.symm.trans hself) (render_ne_of_member? hv herror)
    | none =>
      rw [herror, Option.getD_none] at hself
      rcases errorText_cases v with ⟨s, hs, htext⟩ | ⟨s, hs, htext⟩ | ⟨hstring, hmessage, htext⟩
      · exact absurd (htext.symm.trans hself) (ne_of_asString? hv hs le_rfl)
      · obtain ⟨e', hs', hle'⟩ := weight_le_of_member?_bind hs
        exact absurd (htext.symm.trans hself) (ne_of_asString? hv hs' hle')
      · exact ⟨htext.symm.trans hself, hstring, rfl, hmessage⟩
  · intro hreads
    cases hv : Value.parse? (Text.trim m) with
    | none => rfl
    | some v =>
      obtain ⟨hrender, hstring, herror, hmessage⟩ := hreads v hv
      dsimp only
      rw [herror, Option.getD_none]
      rcases errorText_cases v with ⟨s, hs, -⟩ | ⟨s, hs, -⟩ | ⟨-, -, htext⟩
      · rw [hstring] at hs
        exact nomatch hs
      · rw [hmessage] at hs
        exact nomatch hs
      · exact htext.trans hrender

end Provider

end ChatRelay
