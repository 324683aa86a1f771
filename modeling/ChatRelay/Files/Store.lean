import ChatRelay.Call
import ChatRelay.Files.Tree
import ChatRelay.Text.Base64

/-!
# File stores

A file store is a collaborator that tells whether a file exists and gives its bytes. The local file
store is one over a directory of a file tree.
-/

namespace ChatRelay

/-- A collaborator that keeps files. -/
structure FileStore (σ : Type) where
  exists? : String → Call σ (Result Bool)
  read : String → Call σ (Result (List UInt8))

namespace FileStore

variable {σ : Type}

/-- The Base64 text of a file. -/
def base64 (s : FileStore σ) (id : String) : Call σ (Result String) :=
  (s.exists? id).andThen fun
    | .error f => .known (.error f)
    | .ok false => .known (.error (.attachmentNotFound id))
    | .ok true => (s.read id).andThen fun bytes =>
      .known (bytes.map fun bs => String.ofList (Text.base64 bs))

/-- The store over a directory of a file tree. -/
def inTree (disk : Files.Tree) (root : List Char) : FileStore σ where
  exists? id := .known do
    let path ← Files.resolve root id
    (disk.contains path).mapError Files.PathError.failure
  read id := .known do
    let path ← Files.resolve root id
    (disk.read path).mapError Files.PathError.failure

end FileStore

end ChatRelay
