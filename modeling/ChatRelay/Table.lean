/-!
# Tables

A table gives values to keys, each key once, in increasing order of the keys. Looking up, setting
and removing are its operations; a key that is set again keeps only its last value.
-/

namespace ChatRelay

/-- Values by key, in increasing order of the keys. -/
abbrev Table (α : Type) := List (String × α)

namespace Table

variable {α : Type}

/-- The value of a key. -/
def get? (t : Table α) (key : String) : Option α :=
  t.lookup key

/-- The table in which a key has a value, and all else is the same. -/
def set (t : Table α) (key : String) (value : α) : Table α :=
  match t with
  | [] => [(key, value)]
  | (k, v) :: rest =>
    if key < k then (key, value) :: (k, v) :: rest
    else if key = k then (key, value) :: rest
    else (k, v) :: set rest key value

/-- The table without a key. -/
def remove (t : Table α) (key : String) : Table α :=
  t.filter fun m => m.1 != key

/-- The table after setting each key of a list in turn, so that the last value of a key counts. -/
def setAll (t : Table α) (members : List (String × α)) : Table α :=
  members.foldl (fun t m => set t m.1 m.2) t

/-- The table of a list of keys and values, of which the last with a key counts. -/
def ofList (members : List (String × α)) : Table α :=
  setAll [] members

/-- Keys increase along the table. -/
def Sorted (t : Table α) : Prop :=
  t.Pairwise fun a b => a.1 < b.1

@[simp] theorem get?_nil (key : String) : get? ([] : Table α) key = none := rfl

/-- A key is looked up in the first entry, and then in the others. -/
theorem get?_cons (k : String) (v : α) (t : Table α) (key : String) :
    get? ((k, v) :: t) key = if key == k then some v else get? t key := by
  simp only [get?, List.lookup_cons]
  split <;> simp_all

/-- A key that is set has the value. -/
theorem get?_set_self (t : Table α) (key : String) (value : α) :
    get? (set t key value) key = some value := by
  induction t with
  | nil => simp [set, get?_cons]
  | cons m t ih =>
    obtain ⟨k, v⟩ := m
    simp only [set]
    split
    · simp [get?_cons]
    · split
      · simp [get?_cons]
      · next h => simp [get?_cons, h, ih]

/-- To set a key changes nothing for another key. -/
theorem get?_set_of_ne (t : Table α) {key other : String} (value : α) (h : other ≠ key) :
    get? (set t key value) other = get? t other := by
  induction t with
  | nil => simp [set, get?_cons, h]
  | cons m t ih =>
    obtain ⟨k, v⟩ := m
    simp only [set]
    split
    · simp [get?_cons, h]
    · split
      · next hk => subst hk; simp [get?_cons, h]
      · simp [get?_cons, ih]

/-- A key that is in no entry is not found. -/
theorem get?_eq_none {t : Table α} {key : String} (h : key ∉ t.map Prod.fst) :
    get? t key = none := by
  induction t with
  | nil => rfl
  | cons m t ih =>
    obtain ⟨k, v⟩ := m
    rw [List.map_cons, List.mem_cons, not_or] at h
    rw [get?_cons, if_neg (by simpa using h.1)]
    exact ih h.2

/-- A key is removed from the first entry and from the others. -/
theorem remove_cons (k : String) (v : α) (t : Table α) (key : String) :
    remove ((k, v) :: t) key = if k = key then remove t key else (k, v) :: remove t key := by
  by_cases h : k = key <;> simp [remove, h]

/-- A key that is removed is not found. -/
theorem get?_remove_self (t : Table α) (key : String) : get? (remove t key) key = none := by
  induction t with
  | nil => rfl
  | cons m t ih =>
    obtain ⟨k, v⟩ := m
    rw [remove_cons]
    split
    · exact ih
    · next h => rw [get?_cons, if_neg (by simp [Ne.symm h]), ih]

/-- To remove a key changes nothing for another key. -/
theorem get?_remove_of_ne (t : Table α) {key other : String} (h : other ≠ key) :
    get? (remove t key) other = get? t other := by
  induction t with
  | nil => rfl
  | cons m t ih =>
    obtain ⟨k, v⟩ := m
    rw [remove_cons]
    split
    · next hk => rw [ih, get?_cons, if_neg (by simp [hk, h])]
    · rw [get?_cons, get?_cons, ih]

/-! ### Order -/

/-- The entries after a key is set are its own and those of before. -/
theorem mem_set {t : Table α} {key : String} {value : α} {m : String × α}
    (h : m ∈ set t key value) : m = (key, value) ∨ m ∈ t := by
  induction t with
  | nil => exact .inl (List.mem_singleton.mp h)
  | cons n t ih =>
    obtain ⟨k, v⟩ := n
    simp only [set] at h
    split at h
    · exact List.mem_cons.mp h
    · split at h
      · exact (List.mem_cons.mp h).imp_right (List.mem_cons_of_mem _)
      · rcases List.mem_cons.mp h with h | h
        · exact .inr (h ▸ List.mem_cons_self)
        · exact (ih h).imp_right (List.mem_cons_of_mem _)

/-- A table stays in order when a key is set. -/
theorem sorted_set {t : Table α} (h : t.Sorted) (key : String) (value : α) :
    Sorted (set t key value) := by
  induction t with
  | nil => exact List.pairwise_singleton _ _
  | cons m t ih =>
    obtain ⟨k, v⟩ := m
    obtain ⟨hk, ht⟩ := List.pairwise_cons.mp h
    simp only [set]
    split
    · next hlt =>
      refine List.pairwise_cons.mpr ⟨fun n hn => ?_, h⟩
      rcases List.mem_cons.mp hn with rfl | hn
      · exact hlt
      · exact String.lt_trans hlt (hk n hn)
    · next hnlt =>
      split
      · next heq => exact List.pairwise_cons.mpr ⟨heq ▸ hk, ht⟩
      · next hne =>
        refine List.pairwise_cons.mpr ⟨fun n hn => ?_, ih ht⟩
        rcases mem_set hn with rfl | hn
        · exact Std.lt_of_le_of_ne (String.not_lt.mp hnlt) (Ne.symm hne)
        · exact hk n hn

/-- A table stays in order when keys are set one after another. -/
theorem sorted_setAll {t : Table α} (h : t.Sorted) (members : List (String × α)) :
    Sorted (setAll t members) := by
  induction members generalizing t with
  | nil => exact h
  | cons m ms ih => exact ih (sorted_set h m.1 m.2)

/-- What is made of a list is in order. -/
theorem sorted_ofList (members : List (String × α)) : Sorted (ofList members) :=
  sorted_setAll .nil members

/-- The entries after keys are set are among those set and those of before. -/
theorem mem_of_mem_setAll {t : Table α} {members : List (String × α)} {m : String × α}
    (h : m ∈ setAll t members) : m ∈ members ∨ m ∈ t := by
  induction members generalizing t with
  | nil => exact .inr h
  | cons n ms ih =>
    rcases ih (t := set t n.1 n.2) h with hlater | hset
    · exact .inl (List.mem_cons_of_mem _ hlater)
    · rcases mem_set hset with rfl | hbefore
      · exact .inl List.mem_cons_self
      · exact .inr hbefore

/-- The entries of what is made of a list are among those of the list. -/
theorem mem_of_mem_ofList {members : List (String × α)} {m : String × α}
    (h : m ∈ ofList members) : m ∈ members :=
  (mem_of_mem_setAll h).resolve_right List.not_mem_nil

/-- A key after all others is set at the end. -/
theorem set_eq_append {t : Table α} {key : String} (h : ∀ m ∈ t, m.1 < key) (value : α) :
    set t key value = t ++ [(key, value)] := by
  induction t with
  | nil => rfl
  | cons m t ih =>
    obtain ⟨k, v⟩ := m
    have hlt : k < key := h (k, v) List.mem_cons_self
    have hne : key ≠ k := fun heq => String.lt_irrefl k (heq ▸ hlt)
    rw [set, if_neg (String.lt_asymm hlt), if_neg hne,
      ih fun n hn => h n (List.mem_cons_of_mem _ hn)]
    rfl

/-- Members whose keys follow in order come behind the table. -/
theorem setAll_eq_append {t members : Table α} (h : Sorted (t ++ members)) :
    setAll t members = t ++ members := by
  induction members generalizing t with
  | nil => exact (List.append_nil t).symm
  | cons m ms ih =>
    have hbefore : ∀ n ∈ t, n.1 < m.1 := fun n hn =>
      (List.pairwise_append.mp h).2.2 n hn m List.mem_cons_self
    have happend : t ++ m :: ms = t ++ [(m.1, m.2)] ++ ms := List.append_cons t m ms
    rw [happend] at h ⊢
    rw [← ih h, ← set_eq_append hbefore m.2]
    rfl

/-- The table of what is a table already. -/
theorem ofList_of_sorted {t : Table α} (h : t.Sorted) : ofList t = t :=
  setAll_eq_append h

/-- Keys that are set once have the values that they are set to, and all others keep theirs. -/
theorem get?_setAll_of_nodup (t : Table α) {members : List (String × α)}
    (h : (members.map Prod.fst).Nodup) (key : String) :
    get? (setAll t members) key = (get? members key).or (get? t key) := by
  induction members generalizing t with
  | nil => rfl
  | cons m ms ih =>
    obtain ⟨k, v⟩ := m
    obtain ⟨hlater, hms⟩ := List.nodup_cons.mp h
    have hset : get? (setAll t ((k, v) :: ms)) key = (get? ms key).or (get? (set t k v) key) :=
      ih _ hms
    rw [hset, get?_cons]
    by_cases hkey : key = k
    · subst hkey
      rw [get?_eq_none hlater, get?_set_self]
      simp
    · rw [get?_set_of_ne t v hkey, if_neg (by simpa using hkey)]

/-- No key is twice in a table that is in order. -/
theorem Sorted.nodup_keys {t : Table α} (h : t.Sorted) : (t.map Prod.fst).Nodup :=
  List.pairwise_map.mpr (h.imp String.ne_of_lt)

/-- Keys that are set have the values that they are set to, and all others keep theirs. -/
theorem get?_setAll (t : Table α) {members : Table α} (h : members.Sorted) (key : String) :
    get? (setAll t members) key = (get? members key).or (get? t key) :=
  get?_setAll_of_nodup t h.nodup_keys key

/-- In what is made of a list without repeated keys a key has its value in the list. -/
theorem get?_ofList {members : List (String × α)} (h : (members.map Prod.fst).Nodup)
    (key : String) : get? (ofList members) key = get? members key := by
  rw [ofList, get?_setAll_of_nodup [] h, get?_nil, Option.or_none]

/-- A table stays in order when a key is removed. -/
theorem sorted_remove {t : Table α} (h : t.Sorted) (key : String) : Sorted (remove t key) :=
  h.filter _

end Table

end ChatRelay
