import ChatRelay.Proofs.History.Window
import Mathlib.Data.List.Nodup

/-!
# The list of chats

A session is shown its chats, each with a title and the time of its last save, the one saved last
first. Saves and renamings are the calls that chats depend on, and only as far as they are carried
out (`Store.carriedOut`). The time of a chat is that of its last save. Its title is the one that it
was given last by renaming, else the first that the metadata of its saves gave it (`titleOf`), in
whatever order these calls were made.

`Store.Reflects` ties the chats of a store to the calls that it has carried out. Each call keeps
that (`Reflects.answer`), and the list of chats is read from it (`chatsOf_after`).
-/

namespace ChatRelay

open Json (Object)

/-! ### What chats depend on -/

/-- Whether a store has carried out what it was asked for. -/
def StoreAnswer.isDone : StoreAnswer → Bool
  | .done => true
  | _ => false

namespace TimedCall

/-- Whether a call is a save. -/
def isSave (c : TimedCall) : Bool :=
  match c.call with
  | .save .. => true
  | _ => false

/-- The title that a call gives a chat by renaming it. -/
def givenTitle? (key : String × String) (c : TimedCall) : Option String :=
  match c.call with
  | .rename session chat title => if (session, chat) = key then some title else none
  | _ => none

/-- The title that the metadata of a save suggest for a chat. -/
def suggestedTitle? (key : String × String) (c : TimedCall) : Option String :=
  match c.call with
  | .save session chat _ metadata =>
    if (session, chat) = key then Store.titleIn metadata else none
  | _ => none

/-- What saves for a chat is a save that names it. -/
theorem exists_save_of_savesTo {key : String × String} {c : TimedCall} (h : c.savesTo key = true) :
    ∃ records metadata, c.call = .save key.1 key.2 records metadata := by
  obtain ⟨now, call⟩ := c
  cases call with
  | save session chat records metadata =>
    have hkey : (session, chat) = key := eq_of_beq (Bool.and_eq_true_iff.mp h).2
    subst hkey
    exact ⟨records, metadata, rfl⟩
  | history session chat => exact nomatch h
  | chats session => exact nomatch h
  | rename session chat title => exact nomatch h

/-- A call that saves to a chat is one that saves. -/
theorem isSave_of_savesTo {key : String × String} {c : TimedCall} (h : c.savesTo key = true) :
    c.isSave = true := by
  obtain ⟨records, metadata, hcall⟩ := exists_save_of_savesTo h
  rw [isSave, hcall]

/-- A call saves for one chat at most. -/
theorem savesTo_unique {key key' : String × String} {c : TimedCall} (h : c.savesTo key = true)
    (h' : c.savesTo key' = true) : key = key' := by
  obtain ⟨records, metadata, hcall⟩ := exists_save_of_savesTo h
  obtain ⟨records', metadata', hcall'⟩ := exists_save_of_savesTo h'
  have hsame := StoreCall.save.inj (hcall.symm.trans hcall')
  exact Prod.ext hsame.1 hsame.2.1

end TimedCall

/-- The time of the last save for a chat. -/
def lastSave? (key : String × String) (calls : List TimedCall) : Option Instant :=
  ((calls.filter (·.savesTo key)).getLast?).map TimedCall.now

/-- The title of a chat: the one given to it last, else the first that was suggested. -/
def titleOf (key : String × String) (calls : List TimedCall) : Option String :=
  (calls.filterMap (·.givenTitle? key)).getLast?.or (calls.filterMap (·.suggestedTitle? key)).head?

/-- A further call is the last save of a chat if it saves to it. -/
theorem lastSave?_concat (key : String × String) (calls : List TimedCall) (c : TimedCall) :
    lastSave? key (calls ++ [c]) = if c.savesTo key then some c.now else lastSave? key calls := by
  unfold lastSave?
  rw [List.filter_append]
  cases h : c.savesTo key <;> simp [h]

/-- A further call gives a chat its title, or else the title stays, or else one is suggested. -/
theorem titleOf_concat (key : String × String) (calls : List TimedCall) (c : TimedCall) :
    titleOf key (calls ++ [c]) =
      (c.givenTitle? key).or ((titleOf key calls).or (c.suggestedTitle? key)) := by
  unfold titleOf
  rw [List.filterMap_append, List.filterMap_append, List.getLast?_append, List.head?_append,
    Option.or_assoc, Option.or_assoc]
  cases hgiven : c.givenTitle? key <;> cases hsuggested : c.suggestedTitle? key <;>
    simp [hgiven, hsuggested]

/-- A chat has been saved at some time if there is a save for it. -/
theorem lastSave?_isSome {key : String × String} {calls : List TimedCall} :
    (lastSave? key calls).isSome = true ↔ ∃ c ∈ calls, c.savesTo key = true := by
  rw [lastSave?, Option.isSome_map, List.getLast?_isSome]
  constructor
  · intro hne
    obtain ⟨c, hc⟩ := List.exists_mem_of_ne_nil _ hne
    exact ⟨c, List.mem_filter.mp hc⟩
  · rintro ⟨c, hc, hkey⟩
    exact List.ne_nil_of_mem (List.mem_filter.mpr ⟨hc, hkey⟩)

/-- The time of the last save is that of one of the calls. -/
theorem exists_mem_of_lastSave? {key : String × String} {calls : List TimedCall} {t : Instant}
    (h : lastSave? key calls = some t) : ∃ c ∈ calls, c.savesTo key = true ∧ c.now = t := by
  obtain ⟨c, hc, ht⟩ := Option.map_eq_some_iff.mp h
  have hmem := List.mem_filter.mp (List.mem_of_getLast? hc)
  exact ⟨c, hmem.1, hmem.2, ht⟩

namespace Store

/-- The calls that a store carries out, of calls that are made one after another. -/
def carriedOut (s : Store) : List TimedCall → List TimedCall
  | [] => []
  | c :: calls =>
    let rest := (s.answer c.now c.call).2.carriedOut calls
    if (s.answer c.now c.call).1.isDone then c :: rest else rest

/-! ### Chats by their keys -/

/-- A chat that is put has its place or is the last. -/
theorem map_fst_putChat (key : String × String) (c : Chat)
    (chats : List ((String × String) × Chat)) :
    (putChat key c chats).map Prod.fst =
      if key ∈ chats.map Prod.fst then chats.map Prod.fst else chats.map Prod.fst ++ [key] := by
  induction chats with
  | nil => rfl
  | cons entry rest ih =>
    obtain ⟨k, d⟩ := entry
    rw [putChat]
    by_cases hk : k = key
    · subst hk
      simp
    · rw [if_neg hk, List.map_cons, ih]
      by_cases hrest : key ∈ rest.map Prod.fst
      · have hkey : key ∈ ((k, d) :: rest).map Prod.fst := List.mem_cons_of_mem _ hrest
        rw [if_pos hrest, if_pos hkey]
        rfl
      · have hkey : key ∉ ((k, d) :: rest).map Prod.fst := by
          rw [List.map_cons, List.mem_cons, not_or]
          exact ⟨fun h => hk h.symm, hrest⟩
        rw [if_neg hrest, if_neg hkey]
        rfl

/-- Chats that are listed once are still listed once when one of them is put. -/
theorem nodup_putChat {key : String × String} {c : Chat} {chats : List ((String × String) × Chat)}
    (h : (chats.map Prod.fst).Nodup) : ((putChat key c chats).map Prod.fst).Nodup := by
  rw [map_fst_putChat]
  split
  · exact h
  · next hkey => exact List.Nodup.append h (List.nodup_singleton key) (by simpa using hkey)

/-- Where all keys differ, a chat is found that is there. -/
theorem lookup_eq_some_iff_mem {chats : List ((String × String) × Chat)}
    (hnodup : (chats.map Prod.fst).Nodup) {key : String × String} {c : Chat} :
    chats.lookup key = some c ↔ (key, c) ∈ chats := by
  induction chats with
  | nil => exact iff_of_false nofun List.not_mem_nil
  | cons entry rest ih =>
    obtain ⟨k, d⟩ := entry
    obtain ⟨hk, hrest⟩ := List.nodup_cons.mp hnodup
    have hmem : (key, c) ∈ (k, d) :: rest ↔ (key = k ∧ c = d) ∨ (key, c) ∈ rest := by
      rw [List.mem_cons, Prod.mk.injEq]
    rw [lookup_cons_eq_ite, hmem]
    by_cases hkey : key = k
    · subst hkey
      have hnone : (key, c) ∉ rest := fun hrest => hk (List.mem_map.mpr ⟨_, hrest, rfl⟩)
      rw [if_pos rfl, Option.some.injEq, or_iff_left hnone, and_iff_right rfl, eq_comm]
    · rw [if_neg hkey, ih hrest, or_iff_right fun h => hkey h.1]

/-! ### What a call does to the chats -/

/-- A save with a session puts its chat, or cannot be carried out. -/
theorem save_cases (s : Store) (now : Instant) {session : String} (hsession : session ≠ "")
    (chat : String) (records : List Record) (metadata : Object) :
    (∃ expiresAt, s.save now session chat records metadata =
        .saved { s with
          chats := putChat (session, chat)
            (extend (s.chat? session chat) now expiresAt records metadata) s.chats }) ∨
      s.save now session chat records metadata = .crashed := by
  rw [save, if_neg hsession]
  cases s.expiry now with
  | never => exact .inl ⟨none, rfl⟩
  | ends t => exact .inl ⟨some t, rfl⟩
  | unrepresentable => exact .inr rfl

/-- A call is carried out and puts a chat, as a save or as a renaming, or it leaves the store as it
is. -/
inductive Outcome (s : Store) (c : TimedCall) : Prop where
  | saved {session chat : String} {records : List Record} {metadata : Object}
      {expiresAt : Option Instant}
      (hsession : session ≠ "") (hcall : c.call = .save session chat records metadata)
      (hanswer : s.answer c.now c.call =
        (.done, { s with
          chats := putChat (session, chat)
            (extend (s.chat? session chat) c.now expiresAt records metadata) s.chats }))
  | renamed {session chat title : String} {d : Chat}
      (hcall : c.call = .rename session chat title)
      (hchat : s.chats.lookup (session, chat) = some d)
      (hanswer : s.answer c.now c.call =
        (.done, { s with chats := putChat (session, chat) { d with title := some title } s.chats }))
  | unchanged (hanswer : (s.answer c.now c.call).1.isDone = false)
      (hstore : (s.answer c.now c.call).2 = s)

/-- Each call has one of these outcomes. -/
theorem outcome (s : Store) (c : TimedCall) : Outcome s c := by
  obtain ⟨now, call⟩ := c
  cases call with
  | history session chat => exact .unchanged rfl rfl
  | chats session => exact .unchanged rfl rfl
  | save session chat records metadata =>
    by_cases hsession : session = ""
    · subst hsession
      exact .unchanged rfl rfl
    · rcases s.save_cases now hsession chat records metadata with ⟨expiresAt, hsave⟩ | hsave
      · exact .saved hsession rfl (by dsimp only [answer]; rw [hsave])
      · exact .unchanged (by dsimp only [answer]; rw [hsave]; rfl)
          (by dsimp only [answer]; rw [hsave])
  | rename session chat title =>
    rcases s.rename_cases session chat title with ⟨-, hrename⟩ | ⟨d, hd, hrename⟩
    · exact .unchanged (by dsimp only [answer]; rw [hrename]; rfl)
        (by dsimp only [answer]; rw [hrename])
    · exact .renamed rfl hd (by dsimp only [answer]; rw [hrename])

/-! ### Chats reflect what was carried out -/

/-- The chats of a store that has carried out some calls: one for each key, with the time of its
last save and its title. -/
structure Reflects (done : List TimedCall) (s : Store) : Prop where
  nodup : (s.chats.map Prod.fst).Nodup
  updatedAt_eq : ∀ key, (s.chats.lookup key).map Chat.updatedAt = lastSave? key done
  title_eq : ∀ key, (s.chats.lookup key).bind Chat.title = titleOf key done

variable {done : List TimedCall} {s : Store}

theorem reflects_unused (maxSize : Nat) (lifetime : Option Nat) :
    Reflects [] (unused maxSize lifetime) where
  nodup := List.nodup_nil
  updatedAt_eq _ := rfl
  title_eq _ := rfl

/-- A save sets the time of its chat, and its title if it had none. -/
theorem Reflects.saved (h : Reflects done s) (now : Instant) {session : String}
    (hsession : session ≠ "") (chat : String) (records : List Record) (metadata : Object)
    (expiresAt : Option Instant) :
    Reflects (done ++ [⟨now, .save session chat records metadata⟩])
      { s with
        chats := putChat (session, chat)
          (extend (s.chat? session chat) now expiresAt records metadata) s.chats } where
  nodup := nodup_putChat h.nodup
  updatedAt_eq key := by
    have hsaves := TimedCall.savesTo_save hsession chat records metadata now key
    rw [lookup_putChat, lastSave?_concat]
    by_cases hkey : key = (session, chat)
    · rw [if_pos hkey, if_pos (hsaves.mpr hkey)]
      rfl
    · rw [if_neg hkey, if_neg (mt hsaves.mp hkey)]
      exact h.updatedAt_eq key
  title_eq key := by
    rw [lookup_putChat, titleOf_concat, ← h.title_eq key]
    by_cases hkey : key = (session, chat)
    · subst hkey
      simp [extend, chat?, TimedCall.givenTitle?, TimedCall.suggestedTitle?]
    · simp [TimedCall.givenTitle?, TimedCall.suggestedTitle?, hkey, Ne.symm hkey]

/-- A renaming sets the title of its chat, and not the time. -/
theorem Reflects.renamed (h : Reflects done s) (now : Instant) {session chat : String} {d : Chat}
    (hchat : s.chats.lookup (session, chat) = some d) (title : String) :
    Reflects (done ++ [⟨now, .rename session chat title⟩])
      { s with chats := putChat (session, chat) { d with title := some title } s.chats } where
  nodup := nodup_putChat h.nodup
  updatedAt_eq key := by
    have hlast : lastSave? key (done ++ [⟨now, .rename session chat title⟩]) = lastSave? key done :=
      (lastSave?_concat key done _).trans (if_neg Bool.false_ne_true)
    rw [lookup_putChat, hlast, ← h.updatedAt_eq key]
    by_cases hkey : key = (session, chat)
    · rw [if_pos hkey, hkey, hchat]
      rfl
    · rw [if_neg hkey]
  title_eq key := by
    rw [lookup_putChat, titleOf_concat, ← h.title_eq key]
    by_cases hkey : key = (session, chat)
    · simp [TimedCall.givenTitle?, hkey]
    · simp [TimedCall.givenTitle?, TimedCall.suggestedTitle?, hkey, Ne.symm hkey]

/-- A call is reflected if it is carried out. -/
theorem Reflects.answer (h : Reflects done s) (c : TimedCall) :
    Reflects (if (s.answer c.now c.call).1.isDone then done ++ [c] else done)
      (s.answer c.now c.call).2 := by
  cases s.outcome c with
  | saved hsession hcall hanswer =>
    obtain ⟨now, call⟩ := c
    subst hcall
    rw [hanswer]
    exact h.saved now hsession _ _ _ _
  | renamed hcall hchat hanswer =>
    obtain ⟨now, call⟩ := c
    subst hcall
    rw [hanswer]
    exact h.renamed now hchat _
  | unchanged hanswer hstore =>
    rw [hanswer, hstore]
    exact h

/-- A store that reflects what was done still does after further calls. -/
theorem Reflects.after (h : Reflects done s) (calls : List TimedCall) :
    Reflects (done ++ s.carriedOut calls) (s.after calls) := by
  induction calls generalizing done s with
  | nil =>
    rw [carriedOut, List.append_nil]
    exact h
  | cons c calls ih =>
    have hrest := ih (h.answer c)
    rw [carriedOut]
    split <;> rename_i hdone
    · rw [if_pos hdone, List.append_assoc] at hrest
      exact hrest
    · rw [if_neg hdone] at hrest
      exact hrest

/-! ### What is listed -/

/-- A listed chat is one of the session's chats. -/
theorem mem_chatsOf {s : Store} {session : String} {x : ChatSummary} :
    x ∈ s.chatsOf session ↔
      ∃ c, ((session, x.chatId), c) ∈ s.chats ∧ x.title = c.title ∧ x.updatedAt = c.updatedAt := by
  unfold chatsOf
  rw [List.mem_mergeSort, List.mem_map]
  constructor
  · rintro ⟨⟨⟨owner, chat⟩, c⟩, hown, rfl⟩
    obtain ⟨hmem, howner⟩ := List.mem_filter.mp hown
    have hsession : owner = session := of_decide_eq_true howner
    subst hsession
    exact ⟨c, hmem, rfl, rfl⟩
  · rintro ⟨c, hmem, htitle, htime⟩
    refine ⟨_, List.mem_filter.mpr ⟨hmem, decide_eq_true rfl⟩, ?_⟩
    rw [← htitle, ← htime]

/-- A chat is listed once. -/
theorem Reflects.nodup_chatsOf (h : Reflects done s) (session : String) :
    ((s.chatsOf session).map ChatSummary.chatId).Nodup := by
  have hperm : ((s.chatsOf session).map ChatSummary.chatId).Perm
      ((s.chats.filter fun c => c.1.1 = session).map fun c => c.1.2) := by
    have hsort := (List.mergeSort_perm ((s.chats.filter fun c => c.1.1 = session).map
      fun c => (⟨c.1.2, c.2.title, c.2.updatedAt⟩ : ChatSummary))
      fun a b => b.updatedAt.nanoseconds ≤ a.updatedAt.nanoseconds).map ChatSummary.chatId
    rwa [List.map_map] at hsort
  rw [hperm.nodup_iff]
  have hown : ((s.chats.filter fun c => c.1.1 = session).map Prod.fst).Nodup :=
    h.nodup.sublist (List.filter_sublist.map _)
  rw [List.Nodup, List.pairwise_map] at hown ⊢
  refine hown.imp_of_mem fun {a b} ha hb hne heq => hne (Prod.ext ?_ heq)
  have ha' : a.1.1 = session := of_decide_eq_true (List.mem_filter.mp ha).2
  have hb' : b.1.1 = session := of_decide_eq_true (List.mem_filter.mp hb).2
  exact ha'.trans hb'.symm

/-- A listed chat is shown with the time of its last save and with its title. -/
theorem Reflects.of_mem_chatsOf (h : Reflects done s) {session : String} {x : ChatSummary}
    (hx : x ∈ s.chatsOf session) :
    lastSave? (session, x.chatId) done = some x.updatedAt ∧
      x.title = titleOf (session, x.chatId) done := by
  obtain ⟨c, hmem, htitle, htime⟩ := mem_chatsOf.mp hx
  have hlookup := (lookup_eq_some_iff_mem h.nodup).mpr hmem
  rw [← h.updatedAt_eq, ← h.title_eq, hlookup, htitle, htime]
  exact ⟨rfl, rfl⟩

/-- The chats are listed for which there is a save. -/
theorem Reflects.mem_map_chatsOf (h : Reflects done s) (session chat : String) :
    chat ∈ (s.chatsOf session).map ChatSummary.chatId ↔
      ∃ c ∈ done, c.savesTo (session, chat) = true := by
  rw [← lastSave?_isSome, ← h.updatedAt_eq, Option.isSome_map, List.mem_map]
  constructor
  · rintro ⟨x, hx, rfl⟩
    obtain ⟨c, hmem, -⟩ := mem_chatsOf.mp hx
    rw [(lookup_eq_some_iff_mem h.nodup).mpr hmem]
    rfl
  · intro hsome
    obtain ⟨c, hlookup⟩ := Option.isSome_iff_exists.mp hsome
    have hmem := (lookup_eq_some_iff_mem h.nodup).mp hlookup
    exact ⟨⟨chat, c.title, c.updatedAt⟩, mem_chatsOf.mpr ⟨c, hmem, rfl, rfl⟩, rfl⟩

/-- Saves that are one later than the other are for one chat only if they are one. -/
theorem eq_of_now_eq {calls : List TimedCall}
    (hsaves : (calls.filter TimedCall.isSave).Pairwise
      fun a b => a.now.nanoseconds < b.now.nanoseconds)
    {a b : TimedCall} (ha : a ∈ calls) (hb : b ∈ calls) {key key' : String × String}
    (hakey : a.savesTo key = true) (hbkey : b.savesTo key' = true) (hnow : a.now = b.now) :
    key = key' := by
  have hnodup : ((calls.filter TimedCall.isSave).map (·.now.nanoseconds)).Nodup :=
    List.pairwise_map.mpr (hsaves.imp Int.ne_of_lt)
  have hab : a = b := List.inj_on_of_nodup_map hnodup
    (List.mem_filter.mpr ⟨ha, TimedCall.isSave_of_savesTo hakey⟩)
    (List.mem_filter.mpr ⟨hb, TimedCall.isSave_of_savesTo hbkey⟩) (by rw [hnow])
  subst hab
  exact TimedCall.savesTo_unique hakey hbkey

/-- The chat saved last is listed first, where saves are one later than the other. -/
theorem Reflects.pairwise_chatsOf (h : Reflects done s)
    (hsaves : (done.filter TimedCall.isSave).Pairwise
      fun a b => a.now.nanoseconds < b.now.nanoseconds) (session : String) :
    (s.chatsOf session).Pairwise fun a b => b.updatedAt.nanoseconds < a.updatedAt.nanoseconds := by
  have hsorted : (s.chatsOf session).Pairwise fun a b =>
      b.updatedAt.nanoseconds ≤ a.updatedAt.nanoseconds := by
    refine (List.pairwise_mergeSort ?_ ?_ _).imp of_decide_eq_true
    · simp only [decide_eq_true_eq]
      omega
    · simp only [Bool.or_eq_true, decide_eq_true_eq]
      omega
  have hdistinct := List.pairwise_map.mp (h.nodup_chatsOf session)
  refine (hsorted.and hdistinct).imp_of_mem fun {a b} ha hb ⟨hle, hne⟩ => ?_
  refine (Int.le_iff_lt_or_eq.mp hle).resolve_right fun heq => hne ?_
  obtain ⟨c, hc, hckey, hcnow⟩ := exists_mem_of_lastSave? (h.of_mem_chatsOf ha).1
  obtain ⟨d, hd, hdkey, hdnow⟩ := exists_mem_of_lastSave? (h.of_mem_chatsOf hb).1
  have hnow : c.now = d.now := by
    rw [hcnow, hdnow]
    exact congrArg Instant.mk heq.symm
  exact (Prod.ext_iff.mp (eq_of_now_eq hsaves hc hd hckey hdkey hnow)).2

/-- After any calls of which the saves are one later than the other, the list of a session shows
each chat once that was saved and no other, with the time of its last save and the title that it was
given last, else the first that its saves suggested. The chat that was saved last comes first. -/
theorem chatsOf_after (maxSize : Nat) (lifetime : Option Nat) {calls : List TimedCall}
    (hsaves : (((unused maxSize lifetime).carriedOut calls).filter TimedCall.isSave).Pairwise
      fun a b => a.now.nanoseconds < b.now.nanoseconds) (session : String) (t : Instant) :
    let s := (unused maxSize lifetime).after calls
    let done := (unused maxSize lifetime).carriedOut calls
    ∃ listed, s.answer t (.chats session) = (.summaries listed, s) ∧
      (listed.map ChatSummary.chatId).Nodup ∧
      (∀ chat, chat ∈ listed.map ChatSummary.chatId ↔
        ∃ c ∈ done, c.savesTo (session, chat) = true) ∧
      (∀ x ∈ listed, lastSave? (session, x.chatId) done = some x.updatedAt ∧
        x.title = titleOf (session, x.chatId) done) ∧
      listed.Pairwise fun a b => b.updatedAt.nanoseconds < a.updatedAt.nanoseconds := by
  intro s done
  have hreflects : Reflects done s := (reflects_unused maxSize lifetime).after calls
  exact ⟨s.chatsOf session, rfl, hreflects.nodup_chatsOf session,
    hreflects.mem_map_chatsOf session, fun x hx => hreflects.of_mem_chatsOf hx,
    hreflects.pairwise_chatsOf hsaves session⟩

/-- Saves and renamings of two chats. The last ones ask for a chat that there is not and for no
session. -/
def titledChats : List TimedCall := [
  ⟨⟨1⟩, .save "s" "a" [.ofUser "1" "u"] []⟩,
  ⟨⟨2⟩, .save "s" "b" [.ofUser "2" "u"] [("title", .string "b")]⟩,
  ⟨⟨3⟩, .rename "s" "b" "renamed"⟩,
  ⟨⟨4⟩, .save "s" "a" [.ofUser "3" "u"] [("title", .string "first")]⟩,
  ⟨⟨5⟩, .save "s" "a" [.ofUser "4" "u"] [("title", .string "second")]⟩,
  ⟨⟨6⟩, .rename "s" "c" "none"⟩,
  ⟨⟨6⟩, .save "" "d" [] []⟩]

/-- The chat that was renamed is listed last, with its new title, and the other with the first title
that it was saved with. -/
theorem chatsOf_after_titledChats :
    let done := (unused 2 none).carriedOut titledChats
    ((done.filter TimedCall.isSave).Pairwise
      fun a b => a.now.nanoseconds < b.now.nanoseconds) ∧
      ∃ listed : List ChatSummary,
        (((unused 2 none).after titledChats).answer ⟨9⟩ (.chats "s")).1 = .summaries listed ∧
        "a" ∈ listed.map ChatSummary.chatId ∧ "b" ∈ listed.map ChatSummary.chatId ∧
        "c" ∉ listed.map ChatSummary.chatId ∧
        (∀ x ∈ listed, x.chatId = "a" → x = ⟨"a", some "first", ⟨5⟩⟩) ∧
        ∀ x ∈ listed, x.chatId = "b" → x = ⟨"b", some "renamed", ⟨2⟩⟩ := by
  intro done
  have hsaves : (done.filter TimedCall.isSave).Pairwise
      fun a b => a.now.nanoseconds < b.now.nanoseconds := by decide
  obtain ⟨listed, hanswer, -, hmem, hshown, -⟩ :=
    chatsOf_after 2 none hsaves "s" ⟨9⟩
  refine ⟨hsaves, listed, congrArg Prod.fst hanswer, (hmem _).mpr (by decide),
    (hmem _).mpr (by decide), mt (hmem _).mp (by decide), ?_, ?_⟩
  · rintro ⟨chat, title, time⟩ hx rfl
    obtain ⟨htime, htitle⟩ := hshown _ hx
    have hlast : lastSave? ("s", "a") done = some ⟨5⟩ := by decide
    have hfirst : titleOf ("s", "a") done = some "first" := by decide
    obtain rfl := Option.some.inj (hlast.symm.trans htime)
    obtain rfl := htitle.trans hfirst
    rfl
  · rintro ⟨chat, title, time⟩ hx rfl
    obtain ⟨htime, htitle⟩ := hshown _ hx
    have hlast : lastSave? ("s", "b") done = some ⟨2⟩ := by decide
    have hgiven : titleOf ("s", "b") done = some "renamed" := by decide
    obtain rfl := Option.some.inj (hlast.symm.trans htime)
    obtain rfl := htitle.trans hgiven
    rfl

end Store

end ChatRelay
