import ChatRelay.Failure

/-!
# File ids

Stored files are named by ids, which are paths under a root directory. A path is a text whose
slashes separate segments; empty segments and single dots name nothing. An id may not step to a
parent directory, and so names nothing outside the root.
-/

namespace ChatRelay.Files

/-- The segments of a path. -/
def segments (path : List Char) : List (List Char) :=
  match path with
  | [] => [[]]
  | c :: rest =>
    if c = '/' then [] :: segments rest
    else
      match segments rest with
      | [] => [[c]]
      | s :: more => (c :: s) :: more

/-- Whether a segment names the directory that it stands in. -/
def staysPut (segment : List Char) : Bool :=
  segment == [] || segment == ['.']

/-- The segments of a path that name something. -/
def components (path : List Char) : List (List Char) :=
  (segments path).filter fun s => !staysPut s

/-- A relative path in a directory. -/
def join (root relative : List Char) : List Char :=
  if root.isEmpty || root.getLast? == some '/' then root ++ relative
  else root ++ '/' :: relative

/-- The path of an id under a root. Leading slashes do not count. -/
def resolve (root : List Char) (id : String) : Result (List Char) :=
  let relative := id.toList.dropWhile (· == '/')
  if ['.', '.'] ∈ segments relative then .error (.invalidInput ("invalid file id: " ++ id))
  else .ok (join root relative)

/-- Whether an address names a file elsewhere, which the model fetches by itself. -/
def isRemote (url : String) : Bool :=
  url.startsWith "http://" || url.startsWith "https://"

/-! ### Joining -/

/-- Even an empty path has a segment. -/
theorem segments_ne_nil (path : List Char) : segments path ≠ [] := by
  cases path with
  | nil => exact nofun
  | cons c rest =>
    rw [segments]
    split
    · exact nofun
    · split <;> exact nofun

/-- A slash separates segments. -/
theorem segments_append_slash (a b : List Char) :
    segments (a ++ '/' :: b) = segments a ++ segments b := by
  induction a with
  | nil => rfl
  | cons c rest ih =>
    rw [List.cons_append, segments, segments, ih]
    split
    · rfl
    · obtain ⟨s, more, h⟩ := List.exists_cons_of_ne_nil (segments_ne_nil rest)
      rw [h]
      rfl

@[simp] theorem components_nil : components [] = [] := rfl

/-- A slash separates components. -/
theorem components_append_slash (a b : List Char) :
    components (a ++ '/' :: b) = components a ++ components b := by
  rw [components, segments_append_slash, List.filter_append]
  rfl

/-- The components of a joined path are those of the root and then those under it. -/
theorem components_join (root relative : List Char) :
    components (join root relative) = components root ++ components relative := by
  rw [join]
  split
  · next h =>
    rcases (Bool.or_eq_true _ _).mp h with h | h
    · rw [List.isEmpty_iff.mp h]
      rfl
    · obtain ⟨r, rfl⟩ := List.getLast?_eq_some_iff.mp (eq_of_beq h)
      rw [List.append_assoc, List.singleton_append, components_append_slash,
        components_append_slash, components_nil, List.append_nil]
  · exact components_append_slash root relative

/-- Leading slashes do not matter to components. -/
theorem components_dropWhile_slash (path : List Char) :
    components (path.dropWhile (· == '/')) = components path := by
  induction path with
  | nil => rfl
  | cons c rest ih =>
    by_cases h : c = '/'
    · subst h
      rw [List.dropWhile_cons_of_pos rfl, ih]
      exact (components_append_slash [] rest).symm
    · rw [List.dropWhile_cons_of_neg (by simpa using h)]

end ChatRelay.Files
