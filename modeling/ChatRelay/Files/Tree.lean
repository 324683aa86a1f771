import ChatRelay.Files.Path
import ChatRelay.Text.Utf8

/-!
# File trees

A tree of directories and files in which paths are looked up. A path is followed segment by segment,
and the first segment that cannot be followed decides why the look-up fails.
-/

namespace ChatRelay.Files

/-- A file or a directory. -/
inductive Tree where
  | file (bytes : List UInt8)
  | directory (entries : List (List Char × Tree))

/-- Why a path leads nowhere. -/
inductive PathError where
  | notFound
  | notADirectory
  | isADirectory
  | nameTooLong
  | nulByte
deriving DecidableEq

/-- The failure that a path error is reported as. -/
def PathError.failure : PathError → Failure
  | notFound => .io "No such file or directory (os error 2)"
  | notADirectory => .io "Not a directory (os error 20)"
  | isADirectory => .io "Is a directory (os error 21)"
  | nameTooLong => .io "File name too long (os error 36)"
  | nulByte => .io "file name contained an unexpected NUL byte"

/-- The number of bytes of the longest name. -/
def maxName : Nat := 255

/-- The number of bytes of the longest path. -/
def maxPath : Nat := 4095

namespace Tree

/-- An empty directory. -/
def empty : Tree := .directory []

/-- What segments lead to. -/
def follow (t : Tree) : List (List Char) → Except PathError Tree
  | [] => .ok t
  | s :: rest =>
    match t with
    | .file _ => .error .notADirectory
    | .directory entries =>
      if staysPut s then follow t rest
      else if maxName < (Text.utf8 s).length then .error .nameTooLong
      else
        match entries.lookup s with
        | some inner => follow inner rest
        | none => .error .notFound

/-- What a path leads to. -/
def find (t : Tree) (path : List Char) : Except PathError Tree :=
  if path.contains '\x00' then .error .nulByte
  else if maxPath < (Text.utf8 path).length then .error .nameTooLong
  else t.follow (segments path)

/-- The bytes of the file at a path. -/
def read (t : Tree) (path : List Char) : Except PathError (List UInt8) :=
  match t.find path with
  | .ok (.file bytes) => .ok bytes
  | .ok (.directory _) => .error .isADirectory
  | .error e => .error e

/-- Whether a path leads somewhere. That it leads to nothing is an answer, and any other error is
one. -/
def contains (t : Tree) (path : List Char) : Except PathError Bool :=
  match t.find path with
  | .ok _ => .ok true
  | .error .notFound => .ok false
  | .error e => .error e

/-- The entries in which a name stands for a tree, in its place or at the end. -/
def put (name : List Char) (t : Tree) : List (List Char × Tree) → List (List Char × Tree)
  | [] => [(name, t)]
  | (n, u) :: rest => if n = name then (name, t) :: rest else (n, u) :: put name t rest

/-- The tree with a file at the end of some names. A file on the way gives way to a directory. -/
def write (t : Tree) (bytes : List UInt8) : List (List Char) → Tree
  | [] => .file bytes
  | name :: rest =>
    let entries := match t with
      | .directory entries => entries
      | .file _ => []
    .directory (put name (((entries.lookup name).getD empty).write bytes rest) entries)

end Tree

end ChatRelay.Files
