import ChatRelay.Json.Value
import Mathlib.Data.List.Forall2

/-!
# Nulls of objects

A null and no value at all often mean the same. `DropsNulls` relates an object to what is left of it
when some of its nulls are removed, and `DropsNulls.sameButNull` says what remains of a key then:
the same value, or nothing in the place of null. Whatever reads a null as nothing reads the same
from both (`SameButNull.bind_eq`).
-/

namespace ChatRelay.Json

/-- The second of two objects has the same value of a key as the first, or none where the first has
null. -/
def SameButNull (o o' : Object) (key : String) : Prop :=
  o'.get? key = o.get? key ∨ o.get? key = some .null ∧ o'.get? key = none

/-- The second of two objects is the first without some of its nulls. They are removed from keys
that `may` admits; where `inside` admits it the values of a key may differ otherwise. -/
def DropsNulls (may : String → Prop) (inside : String → Value → Value → Prop) (o o' : Object) :
    Prop :=
  ∀ key, o'.get? key = o.get? key ∨
    (may key ∧ o.get? key = some .null ∧ o'.get? key = none) ∨
    ∃ v v', o.get? key = some v ∧ o'.get? key = some v' ∧ inside key v v'

/-- Values of one key only. -/
def At (key : String) (R : Value → Value → Prop) (k : String) (v v' : Value) : Prop :=
  k = key ∧ R v v'

/-- Values that are objects. -/
inductive AsObjects (R : Object → Object → Prop) : Value → Value → Prop
  | object {o o' : Object} (h : R o o') : AsObjects R (.object o) (.object o')

/-- Values that are the same, or are objects in relation. -/
inductive SameOr (R : Object → Object → Prop) : Value → Value → Prop
  | same (v : Value) : SameOr R v v
  | object {o o' : Object} (h : R o o') : SameOr R (.object o) (.object o')

/-- Values that are arrays, with items in relation one by one. -/
inductive AsArrays (R : Value → Value → Prop) : Value → Value → Prop
  | array {items items' : List Value} (h : List.Forall₂ R items items') :
    AsArrays R (.array items) (.array items')

/-- The second of two objects is the first without some of its nulls, of any keys. -/
def WithoutNulls : Object → Object → Prop :=
  DropsNulls (fun _ => True) fun _ _ _ => False

variable {may : String → Prop} {inside : String → Value → Value → Prop} {o o' : Object}
  {key other : String}

theorem DropsNulls.refl (o : Object) : DropsNulls may inside o o := fun _ => .inl rfl

/-- A key with null may be removed. -/
theorem dropsNulls_remove (key : String) (hmay : may key) (hnull : o.get? key = some .null) :
    DropsNulls may inside o (o.remove key) := by
  intro k
  by_cases hk : k = key
  · subst hk
    exact .inr (.inl ⟨hmay, hnull, Table.get?_remove_self o k⟩)
  · exact .inl (Table.get?_remove_of_ne o hk)

/-- The value of a key may be replaced as `inside` admits. -/
theorem dropsNulls_set {v v' : Value} (key : String) (hget : o.get? key = some v)
    (h : inside key v v') : DropsNulls may inside o (o.set key v') := by
  intro k
  by_cases hk : k = key
  · subst hk
    exact .inr (.inr ⟨v, v', hget, Table.get?_set_self o k v', h⟩)
  · exact .inl (Table.get?_set_of_ne o v' hk)

/-- A key of which nothing inside may differ is the same but for a null. -/
theorem DropsNulls.sameButNull (h : DropsNulls may inside o o') (hkey : ∀ v v', ¬inside key v v') :
    SameButNull o o' key := by
  rcases h key with hsame | ⟨-, hnull, hnone⟩ | ⟨v, v', -, -, hinside⟩
  · exact .inl hsame
  · exact .inr ⟨hnull, hnone⟩
  · exact absurd hinside (hkey v v')

/-- A key is the same but for a null if it is not the one whose value may differ inside. -/
theorem DropsNulls.sameButNull_of_ne {R : Value → Value → Prop}
    (h : DropsNulls may (At other R) o o') (key : String) (hne : key ≠ other) :
    SameButNull o o' key :=
  h.sameButNull fun _ _ hat => hne hat.1

/-- A key that must stay as it is does so. -/
theorem DropsNulls.get?_eq (h : DropsNulls may inside o o') (key : String) (hmay : ¬may key)
    (hkey : ∀ v v', ¬inside key v v') : o'.get? key = o.get? key := by
  rcases h key with hsame | ⟨hallowed, -, -⟩ | ⟨v, v', -, -, hinside⟩
  · exact hsame
  · exact absurd hallowed hmay
  · exact absurd hinside (hkey v v')

/-- Without some nulls each key is the same but for a null. -/
theorem WithoutNulls.sameButNull (h : WithoutNulls o o') (key : String) : SameButNull o o' key :=
  DropsNulls.sameButNull h fun _ _ => id

/-- What is read as nothing from null is read from both. -/
theorem SameButNull.bind_eq {α : Type} (h : SameButNull o o' key) {f : Value → Option α}
    (hf : f .null = none) : (o'.get? key).bind f = (o.get? key).bind f := by
  rcases h with hsame | ⟨hnull, hnone⟩
  · rw [hsame]
  · rw [hnull, hnone]
    exact hf.symm

end ChatRelay.Json
