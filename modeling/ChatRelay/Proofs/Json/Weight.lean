import ChatRelay.Json.Reader
import Mathlib.Algebra.GroupWithZero.Nat
import Mathlib.Order.Nat
import Mathlib.Tactic.SplitIfs

/-!
# How much a JSON text says

The weight of a tree counts the parts of its strings and keys, and one for each string and each
container. A text is at least as long as what it says is heavy (`Tree.weight_le_of_parse?`), because
each character that is read adds at most one to what has been read (`State.weight_le_of_read?`). A
value is not heavier than the tree it is made of (`Value.weight_le_of_ofTreeWithin?`): of the parts
of a string two may make one character, and of the members with one key all but the last are
dropped. So a string inside of a value is shorter than each text of the value
(`length_lt_of_asString?`, `length_lt_of_message`).
-/

namespace ChatRelay.Json

/-! ### Weights -/

mutual

/-- The weight of a tree. -/
def Tree.weight : Tree → Nat
  | .null | .bool _ | .number _ => 0
  | .string pieces => pieces.length + 1
  | .array items => weightOfTrees items + 1
  | .object members => weightOfTreeMembers members + 1

/-- The weight of the items of an array. -/
def weightOfTrees : List Tree → Nat
  | [] => 0
  | t :: ts => t.weight + weightOfTrees ts

/-- The weight of the members of an object. -/
def weightOfTreeMembers : List (List Piece × Tree) → Nat
  | [] => 0
  | (k, t) :: ms => k.length + t.weight + weightOfTreeMembers ms

end

mutual

/-- The weight of a value. -/
def Value.weight : Value → Nat
  | .null | .bool _ | .number _ => 0
  | .string s => s.toList.length + 1
  | .array items => weightOfValues items + 1
  | .object members => weightOfMembers members + 1

/-- The weight of the items of an array. -/
def weightOfValues : List Value → Nat
  | [] => 0
  | v :: vs => v.weight + weightOfValues vs

/-- The weight of the members of an object. -/
def weightOfMembers : List (String × Value) → Nat
  | [] => 0
  | (k, v) :: ms => k.toList.length + v.weight + weightOfMembers ms

end

/-- The weights of items in a row add up. -/
theorem weightOfTrees_append (a b : List Tree) :
    weightOfTrees (a ++ b) = weightOfTrees a + weightOfTrees b := by
  induction a with
  | nil => simp [weightOfTrees]
  | cons t a ih => simp only [List.cons_append, weightOfTrees, ih, Nat.add_assoc]

/-- The weights of members in a row add up. -/
theorem weightOfTreeMembers_append (a b : List (List Piece × Tree)) :
    weightOfTreeMembers (a ++ b) = weightOfTreeMembers a + weightOfTreeMembers b := by
  induction a with
  | nil => simp [weightOfTreeMembers]
  | cons m a ih => simp only [List.cons_append, weightOfTreeMembers, ih, Nat.add_assoc]

/-- The order of items does not matter to their weight. -/
@[simp] theorem weightOfTrees_reverse (ts : List Tree) :
    weightOfTrees ts.reverse = weightOfTrees ts := by
  induction ts with
  | nil => rfl
  | cons t ts ih =>
    rw [List.reverse_cons, weightOfTrees_append, ih]
    simp only [weightOfTrees]
    omega

/-- The order of members does not matter to their weight. -/
@[simp] theorem weightOfTreeMembers_reverse (ms : List (List Piece × Tree)) :
    weightOfTreeMembers ms.reverse = weightOfTreeMembers ms := by
  induction ms with
  | nil => rfl
  | cons m ms ih =>
    rw [List.reverse_cons, weightOfTreeMembers_append, ih]
    simp only [weightOfTreeMembers]
    omega

/-! ### What a character adds -/

namespace Reader

/-- The weight of what has been read of a container. -/
def Container.weight : Container → Nat
  | .array items => weightOfTrees items + 1
  | .object members => weightOfTreeMembers members + 1
  | .member members key => weightOfTreeMembers members + key.length + 1

/-- The weight of what has been read of a value that is not over, or of one after which nothing
comes. -/
def Mode.weight : Mode → Nat
  | .word _ t | .finished t => t.weight
  | .string _ pieces | .escape _ pieces | .codeUnit _ pieces _ _ => pieces.length + 1
  | _ => 0

/-- The weight of open containers. -/
def weightOfStack (stack : List Container) : Nat :=
  (stack.map Container.weight).sum

/-- The weight of what has been read. -/
def State.weight (s : State) : Nat :=
  weightOfStack s.stack + s.mode.weight

@[simp] theorem weightOfStack_nil : weightOfStack [] = 0 := rfl

/-- Containers that are open weigh what each of them does. -/
@[simp] theorem weightOfStack_cons (container : Container) (stack : List Container) :
    weightOfStack (container :: stack) = container.weight + weightOfStack stack := rfl

variable {stack : List Container} {s u : State} {c : Char} {t : Tree}

/-- A tree that is completed adds its weight to what is open. -/
theorem weight_of_completed (h : completed stack t = some s) :
    s.weight = weightOfStack stack + t.weight := by
  unfold completed at h
  split at h
  all_goals cases h
  · rfl
  · simp only [State.weight, weightOfStack_cons, Container.weight, Mode.weight, weightOfTrees]
    omega
  · simp only [State.weight, weightOfStack_cons, Container.weight, Mode.weight, weightOfTreeMembers]
    omega

/-- To close a container adds nothing; it was counted when it was opened. -/
theorem weight_of_closed (h : closed stack c = some s) : s.weight = weightOfStack stack := by
  unfold closed at h
  split at h
  · rw [weight_of_completed h, Tree.weight, weightOfTrees_reverse, weightOfStack_cons,
      Container.weight, Nat.add_comm]
  · rw [weight_of_completed h, Tree.weight, weightOfTreeMembers_reverse, weightOfStack_cons,
      Container.weight, Nat.add_comm]
  · exact nomatch h

/-- To begin a value adds one at most. -/
theorem weight_le_of_begun (h : begun stack c = some s) : s.weight ≤ weightOfStack stack + 1 := by
  unfold begun at h
  split at h
  case h_9 =>
    obtain ⟨d, -, rfl⟩ := Option.map_eq_some_iff.1 h
    exact Nat.le_succ _
  all_goals
    cases h
    simp only [State.weight, weightOfStack_cons, Container.weight, Mode.weight, weightOfTrees,
      weightOfTreeMembers, Tree.weight, List.length_nil]
    omega

/-- To go on to the next item or member adds nothing. -/
theorem weight_of_separated (h : separated stack c = some s) : s.weight = weightOfStack stack := by
  unfold separated at h
  split at h
  · cases h
    rfl
  split at h
  · split at h
    all_goals cases h
    · rfl
    · rfl
  · exact weight_of_closed h

/-- A string that ends adds its parts, and one. -/
theorem weight_le_of_stringEnded {isKey : Bool} {pieces : List Piece}
    (h : stringEnded stack isKey pieces = some s) :
    s.weight ≤ weightOfStack stack + (pieces.length + 1) := by
  unfold stringEnded at h
  split at h
  · split at h
    all_goals cases h
    simp only [State.weight, weightOfStack_cons, Container.weight, Mode.weight,
      List.length_reverse]
    omega
  · exact (weight_of_completed h).le.trans (by rw [Tree.weight, List.length_reverse])

/-- A number that is over weighs nothing. -/
theorem weight_le_of_number {n : Numeral} (h : (State.mk stack (.number n)).read? c = some u) :
    u.weight ≤ weightOfStack stack := by
  unfold State.read? at h
  dsimp only at h
  split at h
  · cases h
    exact Nat.le_refl _
  split at h
  · split at h
    · split at h
      all_goals cases h
      exact Nat.le_refl _
    · obtain ⟨s, hs, hu⟩ := Option.bind_eq_some_iff.1 h
      calc u.weight = weightOfStack s.stack := weight_of_separated hu
        _ ≤ s.weight := Nat.le_add_right _ _
        _ = weightOfStack stack := weight_of_completed hs
  · exact nomatch h

/-- A character adds at most one. -/
theorem State.weight_le_of_read? (h : s.read? c = some u) : u.weight ≤ s.weight + 1 := by
  obtain ⟨stack, m⟩ := s
  have hstack : weightOfStack stack ≤ (State.mk stack m).weight := Nat.le_add_right _ _
  -- A character that goes on with a string, or begins a string or a container, adds one. All others
  -- move what has been read to where it belongs, or drop what does not count.
  cases m with
  | number n => exact (weight_le_of_number h).trans (hstack.trans (Nat.le_succ _))
  | separator =>
    have hseparated : separated stack c = some u := h
    exact (weight_of_separated hseparated).le.trans (hstack.trans (Nat.le_succ _))
  | value =>
    unfold State.read? at h
    dsimp only at h
    split_ifs at h
    · cases h
      exact Nat.le_succ _
    · exact weight_le_of_begun h
  | firstItem =>
    unfold State.read? at h
    dsimp only at h
    split_ifs at h
    · cases h
      exact Nat.le_succ _
    · exact (weight_of_closed h).le.trans (hstack.trans (Nat.le_succ _))
    · exact weight_le_of_begun h
  | key =>
    unfold State.read? at h
    dsimp only at h
    split_ifs at h <;> cases h
    · exact Nat.le_succ _
    · exact Nat.le_refl _
  | firstKey =>
    unfold State.read? at h
    dsimp only at h
    split_ifs at h
    · cases h
      exact Nat.le_succ _
    · exact (weight_of_closed h).le.trans (hstack.trans (Nat.le_succ _))
    · cases h
      exact Nat.le_refl _
  | colon =>
    unfold State.read? at h
    dsimp only at h
    split_ifs at h <;> cases h
    · exact Nat.le_succ _
    · exact Nat.le_succ _
  | word rest t =>
    cases rest with
    | nil => exact nomatch h
    | cons w rest =>
      unfold State.read? at h
      dsimp only at h
      split_ifs at h
      · exact (weight_of_completed h).le.trans (Nat.le_succ _)
      · cases h
        exact Nat.le_succ _
  | string isKey pieces =>
    unfold State.read? at h
    dsimp only at h
    split_ifs at h
    · exact (weight_le_of_stringEnded h).trans (Nat.le_succ _)
    · cases h
      exact Nat.le_succ _
    · cases h
      exact Nat.le_refl _
  | escape isKey pieces =>
    unfold State.read? at h
    dsimp only at h
    split_ifs at h
    · cases h
      exact Nat.le_succ _
    · obtain ⟨e, -, rfl⟩ := Option.map_eq_some_iff.1 h
      exact Nat.le_refl _
  | codeUnit isKey pieces owed unit =>
    obtain ⟨d, -, rfl⟩ := Option.map_eq_some_iff.1 h
    cases owed with
    | zero => exact Nat.le_refl _
    | succ owed => exact Nat.le_succ _
  | finished t =>
    unfold State.read? at h
    dsimp only at h
    split_ifs at h
    cases h
    exact Nat.le_succ _

/-- A text adds at most its length to what has been read. -/
theorem State.weight_le_of_readAll? {text : List Char} (h : s.readAll? text = some u) :
    u.weight ≤ s.weight + text.length := by
  induction text generalizing s with
  | nil =>
    cases h
    exact Nat.le_refl _
  | cons c text ih =>
    obtain ⟨v, hv, hrest⟩ := Option.bind_eq_some_iff.1 h
    have hfirst := weight_le_of_read? hv
    have hlast := ih hrest
    rw [List.length_cons]
    omega

/-- The tree that has been read weighs no more than what has been read. -/
theorem weight_le_of_result? (h : s.result? = some t) : t.weight ≤ s.weight := by
  obtain ⟨stack, m⟩ := s
  unfold State.result? at h
  split at h
  next hstack hmode =>
    cases hstack
    cases hmode
    cases h
    exact Nat.le_add_left _ _
  · split at h
    all_goals cases h
    exact Nat.zero_le _
  · exact nomatch h

end Reader

/-- A text is at least as long as its tree is heavy. -/
theorem Tree.weight_le_of_parse? {text : List Char} {t : Tree} (h : Tree.parse? text = some t) :
    t.weight ≤ text.length := by
  obtain ⟨s, hs, hend⟩ := Option.bind_eq_some_iff.1 h
  have hread : s.weight ≤ 0 + text.length := Reader.State.weight_le_of_readAll? hs
  exact (Reader.weight_le_of_result? hend).trans (hread.trans (Nat.zero_add _).le)

/-! ### Values -/

/-- There are no more characters in a string than parts, of which two may make one. -/
theorem length_le_of_charsOf? {pieces : List Piece} {s : List Char} (h : charsOf? pieces = some s) :
    s.length ≤ pieces.length := by
  fun_induction charsOf? pieces generalizing s with
  | case1 =>
    cases h
    exact Nat.le_refl _
  | case2 c rest ih =>
    obtain ⟨cs, hcs, rfl⟩ := Option.map_eq_some_iff.1 h
    exact Nat.succ_le_succ (ih hcs)
  | case3 =>
    rename_i ih
    obtain ⟨cs, hcs, rfl⟩ := Option.map_eq_some_iff.1 h
    exact (Nat.succ_le_succ (ih hcs)).trans (Nat.le_succ _)
  | case4 => exact nomatch h
  | case5 => exact nomatch h
  | case6 high low rest _ _ ih =>
    obtain ⟨cs, hcs, rfl⟩ := Option.map_eq_some_iff.1 h
    exact Nat.succ_le_succ (ih hcs)
  | case7 => exact nomatch h
  | case8 n rest _ _ ih =>
    obtain ⟨cs, hcs, rfl⟩ := Option.map_eq_some_iff.1 h
    exact Nat.succ_le_succ (ih hcs)

/-- A string has no more characters than the parts it is made of. -/
theorem length_le_of_stringOf? {pieces : List Piece} {s : String} (h : stringOf? pieces = some s) :
    s.toList.length ≤ pieces.length := by
  obtain ⟨cs, hcs, rfl⟩ := Option.map_eq_some_iff.1 h
  rw [String.toList_ofList]
  exact length_le_of_charsOf? hcs

/-- A member that is set adds no more than its own weight. -/
theorem weightOfMembers_set_le (t : Object) (key : String) (v : Value) :
    weightOfMembers (t.set key v) ≤ weightOfMembers t + (key.toList.length + v.weight) := by
  induction t with
  | nil => simp [Table.set, weightOfMembers]
  | cons m t ih =>
    obtain ⟨k, w⟩ := m
    unfold Table.set
    split_ifs with hlt heq
    · simp only [weightOfMembers]
      omega
    · simp only [weightOfMembers]
      omega
    · simp only [weightOfMembers]
      omega

/-- Members that are set add no more than their own weights. -/
theorem weightOfMembers_setAll_le (t : Object) (ms : List (String × Value)) :
    weightOfMembers (t.setAll ms) ≤ weightOfMembers t + weightOfMembers ms := by
  induction ms generalizing t with
  | nil => exact Nat.le_refl _
  | cons m ms ih =>
    -- This is no equation: the value that a key had before is dropped.
    have hset := weightOfMembers_set_le t m.1 m.2
    have hrest := ih (t.set m.1 m.2)
    calc weightOfMembers (t.setAll (m :: ms))
        ≤ weightOfMembers (t.set m.1 m.2) + weightOfMembers ms := hrest
      _ ≤ weightOfMembers t + (m.1.toList.length + m.2.weight) + weightOfMembers ms :=
        Nat.add_le_add_right hset _
      _ = weightOfMembers t + weightOfMembers (m :: ms) := Nat.add_assoc _ _ _

mutual

/-- A value is not heavier than its tree. -/
theorem Value.weight_le_of_ofTreeWithin? {v : Value} : {depth : Nat} → (t : Tree) →
    Value.ofTreeWithin? depth t = some v → v.weight ≤ t.weight
  | _, .null, h | _, .bool _, h => by
    cases h
    exact Nat.le_refl _
  | _, .number l, h => by
    obtain ⟨n, -, rfl⟩ := Option.map_eq_some_iff.1 h
    exact Nat.le_refl _
  | _, .string pieces, h => by
    obtain ⟨s, hs, rfl⟩ := Option.map_eq_some_iff.1 h
    exact Nat.succ_le_succ (length_le_of_stringOf? hs)
  | 0, .array _, h | 0, .object _, h => nomatch h
  | depth + 1, .array items, h => by
    obtain ⟨vs, hvs, rfl⟩ := Option.map_eq_some_iff.1 h
    exact Nat.succ_le_succ (weightOfValues_le_of_itemsOfTrees? items hvs)
  | depth + 1, .object members, h => by
    obtain ⟨ms, hms, rfl⟩ := Option.map_eq_some_iff.1 h
    have hkept : weightOfMembers (Table.ofList ms) ≤ 0 + weightOfMembers ms :=
      weightOfMembers_setAll_le [] ms
    exact Nat.succ_le_succ (hkept.trans
      ((Nat.zero_add _).le.trans (weightOfMembers_le_of_membersOfTrees? members hms)))

/-- Values are no heavier than the trees of the items they are made of. -/
theorem weightOfValues_le_of_itemsOfTrees? {depth : Nat} {vs : List Value} : (ts : List Tree) →
    itemsOfTrees? depth ts = some vs → weightOfValues vs ≤ weightOfTrees ts
  | [], h => by
    cases h
    exact Nat.le_refl _
  | t :: ts, h => by
    obtain ⟨v, hv, h⟩ := Option.bind_eq_some_iff.1 h
    obtain ⟨rest, hrest, h⟩ := Option.bind_eq_some_iff.1 h
    cases h
    exact Nat.add_le_add (Value.weight_le_of_ofTreeWithin? t hv)
      (weightOfValues_le_of_itemsOfTrees? ts hrest)

/-- Members are no heavier than the trees of the members they are made of. -/
theorem weightOfMembers_le_of_membersOfTrees? {depth : Nat} {ms : List (String × Value)} :
    (ns : List (List Piece × Tree)) → membersOfTrees? depth ns = some ms →
      weightOfMembers ms ≤ weightOfTreeMembers ns
  | [], h => by
    cases h
    exact Nat.le_refl _
  | (k, t) :: ns, h => by
    obtain ⟨key, hkey, h⟩ := Option.bind_eq_some_iff.1 h
    obtain ⟨v, hv, h⟩ := Option.bind_eq_some_iff.1 h
    obtain ⟨rest, hrest, h⟩ := Option.bind_eq_some_iff.1 h
    cases h
    exact Nat.add_le_add
      (Nat.add_le_add (length_le_of_stringOf? hkey) (Value.weight_le_of_ofTreeWithin? t hv))
      (weightOfMembers_le_of_membersOfTrees? ns hrest)

end

/-- A member is no heavier than the members together. -/
theorem weight_le_of_get? {ms : Object} {key : String} {v : Value} (h : ms.get? key = some v) :
    v.weight ≤ weightOfMembers ms := by
  induction ms with
  | nil => exact nomatch h
  | cons m ms ih =>
    obtain ⟨k, w⟩ := m
    rw [Table.get?_cons] at h
    rw [weightOfMembers]
    split at h
    · cases h
      omega
    · have hrest := ih h
      omega

/-- What an object holds is lighter than the object. -/
theorem Value.weight_lt_of_member? {v w : Value} {key : String} (h : v.member? key = some w) :
    w.weight < v.weight := by
  cases v with
  | object ms => exact Nat.lt_succ_of_le (weight_le_of_get? h)
  | _ => exact nomatch h

/-- A string weighs its length, and one. -/
theorem Value.weight_of_asString? {v : Value} {s : String} (h : v.asString? = some s) :
    v.weight = s.toList.length + 1 := by
  cases v with
  | string r =>
    cases h
    rfl
  | _ => exact nomatch h

/-- A text is at least as long as its value is heavy. -/
theorem Value.weight_le_of_parse? {text : List Char} {v : Value} (h : Value.parse? text = some v) :
    v.weight ≤ text.length := by
  obtain ⟨t, ht, hv⟩ := Option.bind_eq_some_iff.1 h
  exact (Value.weight_le_of_ofTreeWithin? t hv).trans (Tree.weight_le_of_parse? ht)

end ChatRelay.Json
