import ChatRelay.Files.Tree
import Mathlib.Data.List.Basic

/-!
# File ids stay under the root

A path is taken apart into components: the top directory that it may start at, the directory that it
may say to start in, steps to a parent, and names. Where a path leads, symbolic links aside, is told
by following its components, either over the names of directories (`place`) or in a tree of files
(`Tree.at?`).

An id is resolved by a look at its components, and always continues the root (`resolve_eq_push`). It
is refused exactly if a segment of it is a step to a parent. Any other id, with whatever slashes and
dots, resolves to a path that leads to what the names of the id lead to from the root
(`resolve_confined`), and ids name the same file exactly if they have the same names.
-/

namespace ChatRelay.Files

/-! ### Components of a path -/

/-- What a path is made of. -/
inductive Component where
  | top
  | here
  | parent
  | name (segment : List Char)
deriving DecidableEq

namespace Component

/-- The component that a segment stands for. -/
def ofSegment (segment : List Char) : Component :=
  if segment = ['.', '.'] then .parent else .name segment

/-- Whether a component leads to nothing but what is inside of a directory. -/
def isInside : Component → Bool
  | top | parent => false
  | here | name _ => true

/-- Where a component leads from a place, which is given by the names on the way from the top. -/
def enter (place : List (List Char)) : Component → List (List Char)
  | top => []
  | here => place
  | parent => place.dropLast
  | name segment => place ++ [segment]

/-- No segment stands for the place itself. -/
theorem ofSegment_ne_here (segment : List Char) : ofSegment segment ≠ .here := by
  unfold ofSegment
  split <;> exact nofun

/-- Only two dots lead out of a directory. -/
theorem isInside_ofSegment (segment : List Char) :
    (ofSegment segment).isInside = !decide (segment = ['.', '.']) := by
  unfold ofSegment
  split <;> simp_all [isInside]

/-- Names are entered one after another. -/
theorem foldl_enter_names (names place : List (List Char)) :
    (names.map name).foldl enter place = place ++ names := by
  induction names generalizing place with
  | nil => exact (List.append_nil place).symm
  | cons s names ih =>
    rw [List.map_cons, List.foldl_cons, ih]
    exact List.append_assoc place [s] names

end Component

/-- Whether a path starts at the top. -/
def isAbsolute (path : List Char) : Bool :=
  path.head? == some '/'

/-- The components of a path. A single dot counts where a path starts with it. -/
def parts (path : List Char) : List Component :=
  (if isAbsolute path then [.top]
    else if (segments path).head? = some ['.'] then [.here] else []) ++
    (components path).map .ofSegment

/-- The components of a path that lead elsewhere. -/
def normalParts (path : List Char) : List Component :=
  (parts path).filter (· ≠ .here)

/-- Where a path leads from a place. -/
def place (start : List (List Char)) (path : List Char) : List (List Char) :=
  (parts path).foldl Component.enter start

/-- A path continued by another, which stands for itself if it starts at the top. -/
def push (root path : List Char) : List Char :=
  if isAbsolute path then path else join root path

/-- Besides the top, each segment of a path leads somewhere. -/
theorem normalParts_eq (path : List Char) :
    normalParts path =
      (if isAbsolute path then [.top] else []) ++ (components path).map .ofSegment := by
  have hsegments : ((components path).map Component.ofSegment).filter (· ≠ .here) =
      (components path).map .ofSegment := by
    refine List.filter_eq_self.mpr fun c hc => ?_
    obtain ⟨s, -, rfl⟩ := List.mem_map.mp hc
    exact decide_eq_true (Component.ofSegment_ne_here s)
  rw [normalParts, parts, List.filter_append, hsegments]
  congr 1
  split
  · rfl
  · split <;> rfl

/-- A component that says to start where one is leads nowhere else. -/
theorem place_eq_foldl_normalParts (start : List (List Char)) (path : List Char) :
    place start path = (normalParts path).foldl Component.enter start := by
  rw [place, normalParts_eq, parts, List.foldl_append, List.foldl_append]
  congr 1
  split
  · rfl
  · split <;> rfl

/-! ### Steps to a parent -/

/-- Two dots are never left out of the components of a path. -/
theorem parent_mem_components {path : List Char} :
    ['.', '.'] ∈ components path ↔ ['.', '.'] ∈ segments path := by
  rw [components, List.mem_filter]
  exact and_iff_left rfl

/-- Leading slashes neither add a step to a parent nor take one away. -/
theorem parent_mem_segments_dropWhile {path : List Char} :
    ['.', '.'] ∈ segments (path.dropWhile (· == '/')) ↔ ['.', '.'] ∈ segments path := by
  rw [← parent_mem_components, components_dropWhile_slash, parent_mem_components]

/-- Without two dots all components of a path are names. -/
theorem map_ofSegment_eq_map_name {path : List Char} (h : ['.', '.'] ∉ segments path) :
    (components path).map Component.ofSegment = (components path).map .name := by
  refine List.map_congr_left fun s hs => if_neg ?_
  rintro rfl
  exact h (parent_mem_components.mp hs)

/-- Without its leading slashes a path does not start at the top. -/
theorem isAbsolute_dropWhile (path : List Char) :
    isAbsolute (path.dropWhile (· == '/')) = false := by
  have hhead := List.head?_dropWhile_not (· == '/') path
  unfold isAbsolute
  cases h : (path.dropWhile (· == '/')).head? with
  | none => rfl
  | some c =>
    rw [h] at hhead
    exact hhead

/-- The components of a path that does not start at the top are all inside exactly if none of them
is a step to a parent. -/
theorem all_isInside_parts {path : List Char} (hrelative : isAbsolute path = false) :
    (parts path).all Component.isInside = true ↔ ['.', '.'] ∉ segments path := by
  have hstart : (if isAbsolute path then [Component.top]
      else if (segments path).head? = some ['.'] then [.here] else []).all Component.isInside =
        true := by
    rw [hrelative]
    split
    · contradiction
    · split <;> rfl
  rw [parts, List.all_append, hstart, Bool.true_and, List.all_map, ← parent_mem_components,
    List.all_eq_true]
  constructor
  · intro h hparent
    exact Bool.noConfusion (h _ hparent)
  · intro h s hs
    rw [Function.comp_apply, Component.isInside_ofSegment, Bool.not_eq_true',
      decide_eq_false_iff_not]
    rintro rfl
    exact h hs

/-- An id is resolved by a look at the components that are left of it without its leading slashes.
What is left does not stand for itself, and so the root is always kept. -/
theorem resolve_eq_push (root : List Char) (id : String) :
    resolve root id =
      if (parts (id.toList.dropWhile (· == '/'))).all Component.isInside then
        .ok (push root (id.toList.dropWhile (· == '/')))
      else .error (.invalidInput ("invalid file id: " ++ id)) := by
  have hrelative := isAbsolute_dropWhile id.toList
  have hpush : push root (id.toList.dropWhile (· == '/')) =
      join root (id.toList.dropWhile (· == '/')) := if_neg (by rw [hrelative]; exact nofun)
  rw [resolve, hpush]
  by_cases hparent : ['.', '.'] ∈ segments (id.toList.dropWhile (· == '/'))
  · rw [if_pos hparent, if_neg (mt (all_isInside_parts hrelative).mp (not_not_intro hparent))]
  · rw [if_neg hparent, if_pos ((all_isInside_parts hrelative).mpr hparent)]

/-! ### Joining -/

/-- A path under a root starts at the top if the root does. -/
theorem isAbsolute_join (root : List Char) {relative : List Char}
    (hrelative : isAbsolute relative = false) :
    isAbsolute (join root relative) = isAbsolute root := by
  cases root with
  | nil => exact hrelative
  | cons c rest =>
    rw [join]
    split <;> rfl

/-- A path under a root leads where the root does, and from there along its own segments. -/
theorem normalParts_join (root : List Char) {relative : List Char}
    (hrelative : isAbsolute relative = false) :
    normalParts (join root relative) =
      normalParts root ++ (components relative).map .ofSegment := by
  rw [normalParts_eq, normalParts_eq, isAbsolute_join root hrelative, components_join,
    List.map_append, List.append_assoc]

/-! ### Trees of files -/

/-- What is in a tree at the end of some names. -/
def Tree.at? (t : Tree) : List (List Char) → Option Tree
  | [] => some t
  | s :: rest =>
    match t with
    | .file _ => none
    | .directory entries => (entries.lookup s).bind fun inner => inner.at? rest

/-- More names lead on from where the first ones lead. -/
theorem Tree.at?_append (t : Tree) (names more : List (List Char)) :
    t.at? (names ++ more) = (t.at? names).bind fun inner => inner.at? more := by
  induction names generalizing t with
  | nil => rfl
  | cons s names ih =>
    cases t with
    | file bytes => rfl
    | directory entries =>
      rw [List.cons_append, at?, at?, Option.bind_assoc]
      exact Option.bind_congr fun inner _ => ih inner

/-- Segments that lead somewhere lead to what is at the end of those that name something. -/
theorem Tree.at?_of_follow {t u : Tree} {path : List (List Char)} (h : t.follow path = .ok u) :
    t.at? (path.filter fun s => !staysPut s) = some u := by
  fun_induction follow t path with
  | case1 => exact congrArg some (Except.ok.inj h)
  | case2 => exact nomatch h
  | case3 s rest entries hstays ih => simpa [hstays] using ih h
  | case4 => exact nomatch h
  | case5 s rest entries hstays _ inner hinner ih =>
    rw [List.filter_cons_of_pos (by simpa using hstays), at?, hinner]
    exact ih h
  | case6 => exact nomatch h

/-- What is found at a path is at the end of its names. -/
theorem Tree.at?_of_find {t u : Tree} {path : List Char} (h : t.find path = .ok u) :
    t.at? (components path) = some u := by
  unfold find at h
  split at h
  · exact nomatch h
  · split at h
    · exact nomatch h
    · exact at?_of_follow h

/-! ### Confinement -/

/-- A path that leads to what is under a root at the end of some names, whatever place it is
followed from and in whatever tree of files. -/
structure LeadsTo (root : List Char) (names : List (List Char)) (path : List Char) : Prop where
  parts_eq : normalParts path = normalParts root ++ names.map .name
  place_eq : ∀ start, place start path = place start root ++ names
  found : ∀ {disk u : Tree}, disk.find path = .ok u →
    ∃ directory, disk.at? (components root) = some directory ∧ directory.at? names = some u

/-- What follows a root without steps to a parent leads to what its names say. -/
theorem leadsTo_join (root : List Char) {relative : List Char}
    (hrelative : isAbsolute relative = false) (hparent : ['.', '.'] ∉ segments relative) :
    LeadsTo root (components relative) (join root relative) where
  parts_eq := by
    rw [normalParts_join root hrelative, map_ofSegment_eq_map_name hparent]
  place_eq start := by
    rw [place_eq_foldl_normalParts, normalParts_join root hrelative,
      map_ofSegment_eq_map_name hparent, List.foldl_append, Component.foldl_enter_names,
      ← place_eq_foldl_normalParts]
  found {disk u} h := by
    have hat := Tree.at?_of_find h
    rw [components_join, Tree.at?_append] at hat
    exact Option.bind_eq_some_iff.mp hat

/-- Paths under one root lead to one place exactly if they do so by the same names. -/
theorem LeadsTo.place_eq_iff {root path path' : List Char} {names names' : List (List Char)}
    (h : LeadsTo root names path) (h' : LeadsTo root names' path') (start : List (List Char)) :
    place start path = place start path' ↔ names = names' := by
  rw [h.place_eq, h'.place_eq, List.append_cancel_left_eq]

/-- Paths under one root are equivalent exactly if their names are the same. -/
theorem LeadsTo.normalParts_eq_iff {root path path' : List Char} {names names' : List (List Char)}
    (h : LeadsTo root names path) (h' : LeadsTo root names' path') :
    normalParts path = normalParts path' ↔ names = names' := by
  have hinjective : Function.Injective Component.name := fun _ _ => Component.name.inj
  rw [h.parts_eq, h'.parts_eq, List.append_cancel_left_eq, hinjective.list_map.eq_iff]

/-- An id with two dots among its segments is refused. -/
theorem resolve_of_parent (root : List Char) {id : String}
    (hparent : ['.', '.'] ∈ segments id.toList) :
    resolve root id = .error (.invalidInput ("invalid file id: " ++ id)) :=
  if_pos (parent_mem_segments_dropWhile.mpr hparent)

/-- Any other id leads to what its names lead to under the root. -/
theorem exists_resolve (root : List Char) {id : String}
    (hparent : ['.', '.'] ∉ segments id.toList) :
    ∃ path, resolve root id = .ok path ∧ LeadsTo root (components id.toList) path := by
  have hrest := mt parent_mem_segments_dropWhile.mp hparent
  have hleads := leadsTo_join root (isAbsolute_dropWhile id.toList) hrest
  rw [components_dropWhile_slash] at hleads
  exact ⟨_, if_neg hrest, hleads⟩

/-- An id leads under the root if it leads anywhere. -/
theorem leadsTo_of_resolve {root path : List Char} {id : String} (h : resolve root id = .ok path) :
    LeadsTo root (components id.toList) path := by
  by_cases hparent : ['.', '.'] ∈ segments id.toList
  · rw [resolve_of_parent root hparent] at h
    exact nomatch h
  · obtain ⟨path', hpath', hleads⟩ := exists_resolve root hparent
    obtain rfl := Except.ok.inj (h.symm.trans hpath')
    exact hleads

/-- An id is refused exactly if a segment of it is a step to a parent. Any other resolves to a path
to what the id names under the root, and two ids lead to one place exactly if they name the same. -/
theorem resolve_confined (root : List Char) (id : String) :
    ((∃ f, resolve root id = .error f) ↔ ['.', '.'] ∈ segments id.toList) ∧
      (∀ f, resolve root id = .error f → f = .invalidInput ("invalid file id: " ++ id)) ∧
      ∀ path, resolve root id = .ok path →
        LeadsTo root (components id.toList) path ∧
          ∀ other path', resolve root other = .ok path' →
            (normalParts path = normalParts path' ↔
                components id.toList = components other.toList) ∧
              ∀ start, place start path = place start path' ↔
                components id.toList = components other.toList := by
  refine ⟨?_, ?_, ?_⟩
  · constructor
    · rintro ⟨f, hf⟩
      by_contra hparent
      obtain ⟨path, hpath, -⟩ := exists_resolve root hparent
      exact nomatch hf.symm.trans hpath
    · intro hparent
      exact ⟨_, resolve_of_parent root hparent⟩
  · intro f hf
    by_cases hparent : ['.', '.'] ∈ segments id.toList
    · exact Except.error.inj (hf.symm.trans (resolve_of_parent root hparent))
    · obtain ⟨path, hpath, -⟩ := exists_resolve root hparent
      exact nomatch hf.symm.trans hpath
  · intro path hpath
    have hleads := leadsTo_of_resolve hpath
    refine ⟨hleads, ?_⟩
    intro other path' hpath'
    have hleads' := leadsTo_of_resolve hpath'
    exact ⟨hleads.normalParts_eq_iff hleads', hleads.place_eq_iff hleads'⟩

/-- Slashes and dots around the names make no difference, and neither do dots in a name. A step to a
parent is refused also where it would not leave the root. -/
theorem resolve_confined_dots :
    (∃ f, resolve "../data".toList "docs/../a" = .error f) ∧
      resolve "../data".toList "//docs/.//a..b/c./" = .ok "../data/docs/.//a..b/c./".toList ∧
      resolve "../data".toList "docs/a..b/c." = .ok "../data/docs/a..b/c.".toList ∧
      place [['s', 'r', 'v']] "../data/docs/.//a..b/c./".toList =
        place [['s', 'r', 'v']] "../data/docs/a..b/c.".toList := by
  have hdots : resolve "../data".toList "//docs/.//a..b/c./" =
      .ok "../data/docs/.//a..b/c./".toList := rfl
  have hplain : resolve "../data".toList "docs/a..b/c." = .ok "../data/docs/a..b/c.".toList := by
    rfl
  have hsame := ((resolve_confined _ _).2.2 _ hdots).2 _ _ hplain
  have hrefused := (resolve_confined "../data".toList "docs/../a").1.mpr (by decide)
  exact ⟨hrefused, hdots, hplain, (hsame.2 _).mpr (by decide)⟩

end ChatRelay.Files
