import ChatRelay.Http.Address
import ChatRelay.Text.Base64
import ChatRelay.Text.Blank

/-!
# Headers

The headers of a request with a key. A key with a character that no header may hold is left out, and
so is an empty one; a request without a key falls back on the credentials in its address.
-/

namespace ChatRelay.Http

/-- Whether a header's value may hold a character. -/
def isHeaderChar (c : Char) : Bool :=
  c = '\t' || (0x20 ≤ c.toNat && c.toNat ≠ 0x7F)

/-- The value of the authorization header for a key. -/
def authorization? (key : String) : Option String :=
  if key = "" ∨ !key.toList.all isHeaderChar then none else some ("Bearer " ++ key)

/-- The value of the authorization header for a user's name and password. -/
def Credentials.authorization (c : Credentials) : String :=
  "Basic " ++ String.ofList (Text.base64 (Text.utf8 (c.user ++ ':' :: c.password)))

/-- The authorization of a request to a server as it arrives there. Blanks at the end of a header's
value do not. -/
def arrivingAuthorization? (key : String) (server : Server) : Option String :=
  ((authorization? key).or (server.credentials.map Credentials.authorization)).map fun value =>
    String.ofList (Text.trimEnd value.toList)

/-- The media type of what is sent. -/
def contentType : String := "application/json"

/-- The media type of what is asked for. -/
def accept : String := "text/event-stream"

/-- The headers of a request by name. -/
def headers (key : String) : List (String × String) :=
  let base := [("accept", accept), ("content-type", contentType)]
  match authorization? key with
  | some value => ("authorization", value) :: base
  | none => base

end ChatRelay.Http
