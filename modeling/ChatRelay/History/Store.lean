import ChatRelay.History.Record

/-!
# The history store

A store keeps the records of chats in memory. Each chat belongs to a session. A chat gives out the
newest of its records, up to the size of the store, and none whose lifetime has ended. Lifetimes are
counted from the save; one that is too long to be a duration never ends, while an end that lies
after the last instant there is cannot be computed, and ends the save itself.
-/

namespace ChatRelay

open Json (Object Value)

/-- A point in time, in nanoseconds. -/
structure Instant where
  nanoseconds : Int
deriving DecidableEq

/-- The last instant there is: the end of the year 262142. -/
def Instant.last : Instant := ⟨8210266876799999999999⟩

/-- The longest duration in nanoseconds, which is as long as its milliseconds fit 64 bits. -/
def longestDuration : Nat := (Nat.pow 2 63 - 1) * 1000000

/-- A kept record, and the end of its lifetime if it has one. -/
structure Stored where
  record : Record
  expiresAt : Option Instant

/-- Whether the lifetime of a record has not ended. -/
def Stored.isLive (s : Stored) (now : Instant) : Bool :=
  s.expiresAt.all fun t => now.nanoseconds < t.nanoseconds

/-- The kept records of a chat, oldest first. -/
structure Chat where
  stored : List Stored
  title : Option String
  updatedAt : Instant

/-- The chats of all sessions, by session and chat id, in the order of their first saves. -/
structure Store where
  /-- How many records a chat gives out. -/
  maxSize : Nat
  /-- How many nanoseconds a record lives. -/
  lifetime : Option Nat
  chats : List ((String × String) × Chat)

/-- A chat as a list of chats shows it. -/
structure ChatSummary where
  chatId : String
  title : Option String
  updatedAt : Instant

/-- When a record ends that is saved now. -/
inductive Expiry where
  | never
  | ends (t : Instant)
  /-- The end lies after the last instant. -/
  | unrepresentable

/-- What becomes of a save. -/
inductive Saved where
  | saved (s : Store)
  | refused (f : Failure)
  /-- The end of the records' lifetime cannot be computed. -/
  | crashed

namespace Store

/-- A store without chats. -/
def unused (maxSize : Nat) (lifetime : Option Nat) : Store := ⟨maxSize, lifetime, []⟩

/-- An empty store in which records live a number of seconds. -/
def empty (maxSize : Nat) (seconds : Option Nat) : Store :=
  unused maxSize (seconds.map (· * 1000000000))

/-- The chat with an id. -/
def chat? (s : Store) (session chat : String) : Option Chat :=
  s.chats.lookup (session, chat)

/-- The chats in which one chat is as given, in its place or at the end. -/
def putChat (key : String × String) (c : Chat) :
    List ((String × String) × Chat) → List ((String × String) × Chat)
  | [] => [(key, c)]
  | (k, d) :: rest => if k = key then (key, c) :: rest else (k, d) :: putChat key c rest

/-- When the records of a save end. -/
def expiry (s : Store) (now : Instant) : Expiry :=
  match s.lifetime with
  | none => .never
  | some nanoseconds =>
    if longestDuration < nanoseconds then .never
    else
      let t : Instant := ⟨now.nanoseconds + nanoseconds⟩
      if Instant.last.nanoseconds < t.nanoseconds then .unrepresentable else .ends t

/-- The last elements of a list, at most `n` of them. -/
def newest {α : Type} (n : Nat) (l : List α) : List α :=
  l.drop (l.length - n)

/-- The newest of what is made of entries are made of the newest entries. -/
theorem newest_map {α β : Type} (f : α → β) (n : Nat) (l : List α) :
    newest n (l.map f) = (newest n l).map f := by
  rw [newest, newest, List.length_map, List.map_drop]

/-- The records that a chat gives out, oldest first. -/
def history (s : Store) (now : Instant) (session chat : String) : List Record :=
  match s.chat? session chat with
  | none => []
  | some c => newest s.maxSize ((c.stored.filter (·.isLive now)).map Stored.record)

/-- The title that metadata give a chat. -/
def titleIn (metadata : Object) : Option String :=
  (metadata.get? "title").bind Value.asString?

/-- A chat with more records. Records whose lifetime has ended are dropped, and the first title that
metadata give is kept. -/
def extend (c : Option Chat) (now : Instant) (expiresAt : Option Instant) (records : List Record)
    (metadata : Object) : Chat where
  stored :=
    ((c.elim [] Chat.stored).filter (·.isLive now)) ++ records.map fun r => ⟨r, expiresAt⟩
  title := (c.bind Chat.title).or (titleIn metadata)
  updatedAt := now

/-- Keeps records of a chat. -/
def save (s : Store) (now : Instant) (session chat : String) (records : List Record)
    (metadata : Object) : Saved :=
  if session = "" then .refused (.storage "session id is required")
  else
    let put (expiresAt : Option Instant) : Saved :=
      let c := extend (s.chat? session chat) now expiresAt records metadata
      .saved { s with chats := putChat (session, chat) c s.chats }
    match s.expiry now with
    | .never => put none
    | .ends t => put (some t)
    | .unrepresentable => .crashed

/-- The chats of a session, the one saved last first. -/
def chatsOf (s : Store) (session : String) : List ChatSummary :=
  let own := s.chats.filter fun c => c.1.1 = session
  let summaries := own.map fun c => ⟨c.1.2, c.2.title, c.2.updatedAt⟩
  summaries.mergeSort fun (a b : ChatSummary) => b.updatedAt.nanoseconds ≤ a.updatedAt.nanoseconds

/-- Gives a chat a title. -/
def rename (s : Store) (session chat title : String) : Result Store :=
  match s.chat? session chat with
  | none => .error (.storage ("chat " ++ chat ++ " not found"))
  | some c => .ok { s with chats := putChat (session, chat) { c with title := some title } s.chats }

end Store

end ChatRelay
