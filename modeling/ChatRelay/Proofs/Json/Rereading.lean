import ChatRelay.Proofs.Json.Numbers

/-!
# Written values are read back

A text is read as a value if its tree is that value, in which only so many containers may lie inside
each other (`ReadsAs`). Strings, truth values and whole numbers of sixty-four bits are read as what
they were before they were written, and so are arrays and objects of such values. The members of an
object are written in any order and come back as a table.

Main result: the text of an object is read as the table of what the texts of its members are read as
(`parse?_renderMembers`). For a table that is its own table, and so what is written for an object is
read as the object (`readsBack_objectOf`).
-/

namespace ChatRelay.Json

open Reader

/-! ### Whole numbers -/

/-- The numbers that digits stand for. -/
def digitsOf (text : List Char) : List Nat :=
  text.map fun c => c.toNat - '0'.toNat

/-- A digit stands for its distance from zero. -/
theorem digit?_of_isDigit {c : Char} (hc : c.isDigit = true) :
    digit? c = some (c.toNat - '0'.toNat) := by
  have hmem := mem_of_isDigit hc
  fin_cases hmem <;> rfl

/-- Digits are taken into a number one after another. -/
theorem foldlM_push?_digits {text : List Char} (h : ∀ c ∈ text, c.isDigit = true) (n : Numeral)
    (hn : n.place = .whole) :
    text.foldlM Numeral.push? n =
      some { n with whole := (digitsOf text).reverse ++ n.whole } := by
  induction text generalizing n with
  | nil => rfl
  | cons c text ih =>
    have hpush : n.push? c = some { n with whole := (c.toNat - '0'.toNat) :: n.whole } := by
      unfold Numeral.push?
      rw [hn, digit?_of_isDigit (h c List.mem_cons_self)]
    have hrest := ih (fun d hd => h d (List.mem_cons_of_mem c hd))
      { n with whole := (c.toNat - '0'.toNat) :: n.whole } hn
    rw [List.foldlM_cons, hpush]
    refine hrest.trans ?_
    simp [digitsOf]

/-- The digits of a natural number stand for it. -/
theorem digitsValue_digitsOf (n : Nat) : digitsValue (digitsOf (Nat.toDigits 10 n)) = n := by
  have hdigits : ∀ text : List Char, digitsValue (digitsOf text) = Nat.ofDigitChars 10 text 0 := by
    intro text
    simp only [digitsValue, digitsOf, List.foldl_map, Nat.ofDigitChars_eq_foldl, Nat.mul_comm 10]
  rw [hdigits, Nat.ofDigitChars_ten_toDigits]

/-- The digits of a whole number are read as the number. -/
theorem exists_reads_toDigits {n : Nat} (h : n < Nat.pow 2 64) :
    ∃ l : Literal, Reads (Nat.toDigits 10 n) (.number l) ∧ l.toNumber? = some (.whole n) := by
  by_cases hn : n = 0
  · subst hn
    refine ⟨_, reads_number (n := ⟨.leadingZero, false, [0], [], false, []⟩) rfl (by decide)
      (fun _ => rfl) rfl (.inl rfl), rfl⟩
  · obtain ⟨c, rest, hdigits, hc⟩ := exists_toDigits_eq_cons hn
    have hall : ∀ d ∈ c :: rest, d.isDigit = true := fun d hd => isDigit_of_mem (hdigits ▸ hd)
    have hmem := mem_of_isDigit (hall c List.mem_cons_self)
    have hbegun : ∀ stack, begun stack c =
        some ⟨stack, .number ⟨.whole, false, [c.toNat - '0'.toNat], [], false, []⟩⟩ := by
      intro stack
      fin_cases hmem
      · exact absurd rfl hc
      all_goals rfl
    have hspace : isSpace c = false ∧ c ≠ ']' := by
      fin_cases hmem <;> exact ⟨rfl, by decide⟩
    have hrest := foldlM_push?_digits (fun d hd => hall d (List.mem_cons_of_mem c hd))
      ⟨.whole, false, [c.toNat - '0'.toNat], [], false, []⟩ rfl
    refine ⟨_, hdigits ▸ reads_number hspace.1 hspace.2 hbegun hrest (.inr (.inl rfl)), ?_⟩
    have hwhole : ((digitsOf rest).reverse ++ [c.toNat - '0'.toNat]).reverse =
        digitsOf (Nat.toDigits 10 n) := by
      rw [hdigits]
      simp [digitsOf]
    unfold Literal.toNumber? Numeral.literal
    dsimp only
    rw [hwhole, digitsValue_digitsOf, if_neg Bool.false_ne_true, if_pos h]
    rfl

/-! ### Texts of values -/

/-- The text is read as a value, in which at most `depth` containers lie inside each other. -/
def ReadsAs (depth : Nat) (text : List Char) (v : Value) : Prop :=
  ∃ t, Reads text t ∧ Value.ofTreeWithin? depth t = some v

variable {depth : Nat}

/-- What is written for a string is read as the string. -/
theorem readsAs_string (depth : Nat) (s : String) :
    ReadsAs depth (renderString s.toList) (.string s) := by
  refine ⟨_, (endsItself_renderString s.toList).reads, ?_⟩
  rw [Value.ofTreeWithin?, stringOf?_pieces, String.ofList_toList]
  rfl

/-- What is written for a truth value is read as the truth value. -/
theorem readsAs_bool (depth : Nat) (b : Bool) : ReadsAs depth (Value.bool b).render (.bool b) := by
  cases b with
  | true => exact ⟨.bool true, (endsItself_word rfl (by decide) fun _ => rfl).reads, rfl⟩
  | false => exact ⟨.bool false, (endsItself_word rfl (by decide) fun _ => rfl).reads, rfl⟩

theorem readsAs_null (depth : Nat) : ReadsAs depth Value.null.render .null :=
  ⟨.null, (endsItself_word rfl (by decide) fun _ => rfl).reads, rfl⟩

/-- What is written for a natural number of sixty-four bits is read as the number. -/
theorem readsAs_ofNat (depth : Nat) {n : Nat} (h : n < Nat.pow 2 64) :
    ReadsAs depth (Value.ofNat n).render (.ofNat n) := by
  obtain ⟨l, hl, hnumber⟩ := exists_reads_toDigits h
  have hrender : (Value.ofNat n).render = Nat.toDigits 10 n := by
    simp [Value.ofNat, Value.render, Number.render, renderInt]
  refine ⟨.number l, hrender ▸ hl, ?_⟩
  rw [Value.ofTreeWithin?, hnumber]
  rfl

/-- An array is read as the array of what its items are read as. -/
theorem readsAs_renderItems {texts : List (List Char)} {vs : List Value}
    (h : List.Forall₂ (ReadsAs depth) texts vs) :
    ReadsAs (depth + 1) (renderItems texts) (.array vs) := by
  obtain ⟨ts, hts, hvs⟩ : ∃ ts, List.Forall₂ Reads texts ts ∧ itemsOfTrees? depth ts = some vs := by
    induction h with
    | nil => exact ⟨[], .nil, rfl⟩
    | cons hfirst _ ih =>
      obtain ⟨t, ht, hv⟩ := hfirst
      obtain ⟨ts, hts, hvs⟩ := ih
      refine ⟨t :: ts, .cons ht hts, ?_⟩
      rw [itemsOfTrees?, hv, hvs]
      rfl
  refine ⟨.array ts, (endsItself_renderItems hts).reads, ?_⟩
  rw [Value.ofTreeWithin?, hvs]
  rfl

/-- The text of a member is read as a key and a value. -/
structure ReadsAsMember (depth : Nat) (m : List Char × List Char) (n : String × Value) : Prop where
  key_eq : m.1 = n.1.toList
  value : ReadsAs depth m.2 n.2

/-- Members that are read one by one are read together. -/
theorem exists_members {ms : List (List Char × List Char)} {ns : List (String × Value)}
    (h : List.Forall₂ (ReadsAsMember depth) ms ns) :
    ∃ ts, EndsItself (renderMembers ms) (.object ts) ∧ membersOfTrees? depth ts = some ns := by
  obtain ⟨ts, hts, hns⟩ : ∃ ts, List.Forall₂ ReadsMember ms ts ∧
      membersOfTrees? depth ts = some ns := by
    induction h with
    | nil => exact ⟨[], .nil, rfl⟩
    | @cons m n ms ns hfirst _ ih =>
      obtain ⟨t, ht, hv⟩ := hfirst.value
      obtain ⟨ts, hts, hns⟩ := ih
      refine ⟨(pieces m.1, t) :: ts, .cons ⟨rfl, ht⟩ hts, ?_⟩
      rw [membersOfTrees?, stringOf?_pieces, hfirst.key_eq, String.ofList_toList, hv, hns]
      rfl
  exact ⟨ts, endsItself_renderMembers hts, hns⟩

/-- An object is read as the table of what its members are read as. -/
theorem readsAs_renderMembers {ms : List (List Char × List Char)} {ns : List (String × Value)}
    (h : List.Forall₂ (ReadsAsMember depth) ms ns) :
    ReadsAs (depth + 1) (renderMembers ms) (.object (Table.ofList ns)) := by
  obtain ⟨ts, hts, hns⟩ := exists_members h
  refine ⟨.object ts, hts.reads, ?_⟩
  rw [Value.ofTreeWithin?, hns]
  rfl

/-- The text of an object that stands alone is read in the same way. -/
theorem parse?_renderMembers {ms : List (List Char × List Char)} {ns : List (String × Value)}
    (hdepth : depth + 1 = depthLimit) (h : List.Forall₂ (ReadsAsMember depth) ms ns) :
    Value.parse? (renderMembers ms) = some (.object (Table.ofList ns)) := by
  obtain ⟨ts, hts, hns⟩ := exists_members h
  rw [Value.parse?, hts.parse?, Option.bind_some, Value.ofTree?, ← hdepth, Value.ofTreeWithin?, hns]
  rfl

/-- The text of a member that may be absent, and the member. -/
def ReadsAsField (depth : Nat) (t : String × Option (List Char)) (m : String × Option Value) :
    Prop :=
  t.1 = m.1 ∧ Option.Rel (ReadsAs depth) t.2 m.2

/-- The members that are present are read one by one. -/
theorem forall₂_present {texts : List (String × Option (List Char))}
    {members : List (String × Option Value)}
    (h : List.Forall₂ (ReadsAsField depth) texts members) :
    List.Forall₂ (ReadsAsMember depth) (texts.filterMap fun t => t.2.map (t.1.toList, ·))
      (members.filterMap fun m => m.2.map (m.1, ·)) := by
  induction h with
  | nil => exact .nil
  | @cons t m _ _ hfirst _ ih =>
    obtain ⟨key, text⟩ := t
    obtain ⟨k, v⟩ := m
    obtain ⟨rfl, hvalue⟩ := hfirst
    cases hvalue with
    | none => exact ih
    | some hread => exact .cons ⟨rfl, hread⟩ ih

/-! ### Values that are written and read back -/

/-- What is written for the value is read as the value. -/
def ReadsBack (depth : Nat) (v : Value) : Prop :=
  ReadsAs depth v.render v

/-- An array is read as it is written if its items are. -/
theorem readsBack_array {items : List Value} (h : ∀ v ∈ items, ReadsBack depth v) :
    ReadsBack (depth + 1) (.array items) := by
  apply readsAs_renderItems
  induction items with
  | nil => exact .nil
  | cons v vs ih =>
    exact .cons (h v List.mem_cons_self) (ih fun w hw => h w (List.mem_cons_of_mem v hw))

/-- Members are read as they are written if their values are. -/
theorem forall₂_renderMemberValues {members : List (String × Value)}
    (h : ∀ m ∈ members, ReadsBack depth m.2) :
    List.Forall₂ (ReadsAsMember depth) (renderMemberValues members) members := by
  induction members with
  | nil => exact .nil
  | cons m ms ih =>
    exact .cons ⟨rfl, h m List.mem_cons_self⟩ (ih fun n hn => h n (List.mem_cons_of_mem m hn))

/-- An object is read back if its members are in order and their values are read back. -/
theorem readsBack_object {o : Object} (hsorted : o.Sorted) (h : ∀ m ∈ o, ReadsBack depth m.2) :
    ReadsBack (depth + 1) (.object o) := by
  have hread := readsAs_renderMembers (forall₂_renderMemberValues h)
  rw [Table.ofList_of_sorted hsorted] at hread
  exact hread

/-- The text of an object is read as the object, if its members are and its depth allows it. -/
theorem parse?_render_object {o : Object} (hdepth : depth + 1 = depthLimit) (hsorted : o.Sorted)
    (h : ∀ m ∈ o, ReadsBack depth m.2) :
    Value.parse? (Value.object o).render = some (.object o) := by
  have hread := parse?_renderMembers hdepth (forall₂_renderMemberValues h)
  rw [Table.ofList_of_sorted hsorted] at hread
  exact hread

/-- The members that are present are read back if their values are. -/
theorem readsBack_of_mem_present {members : List (String × Option Value)}
    (h : ∀ m ∈ members, ∀ v ∈ m.2, ReadsBack depth v) :
    ∀ m ∈ Table.ofList (members.filterMap fun m => m.2.map (m.1, ·)), ReadsBack depth m.2 := by
  intro m hm
  obtain ⟨⟨k, v⟩, hfield, hv⟩ := List.mem_filterMap.mp (Table.mem_of_mem_ofList hm)
  obtain ⟨w, rfl, rfl⟩ := Option.map_eq_some_iff.mp hv
  exact h (k, some w) hfield w rfl

/-- An object of fields is read as it is written if the fields that are there are. -/
theorem readsBack_objectOf {members : List (String × Option Value)}
    (h : ∀ m ∈ members, ∀ v ∈ m.2, ReadsBack depth v) :
    ReadsBack (depth + 1) (objectOf members) :=
  readsBack_object (Table.sorted_ofList _) (readsBack_of_mem_present h)

/-- The text of such an object is read as the object, if its depth allows it. -/
theorem parse?_render_objectOf {members : List (String × Option Value)}
    (hdepth : depth + 1 = depthLimit) (h : ∀ m ∈ members, ∀ v ∈ m.2, ReadsBack depth v) :
    Value.parse? (objectOf members).render = some (objectOf members) :=
  parse?_render_object hdepth (Table.sorted_ofList _) (readsBack_of_mem_present h)

end ChatRelay.Json
