import ChatRelay.History.Store

/-!
# The window of a chat

A store drops records at saves, keeps with each record when it ends, and bounds what it gives out
only when it is asked. None of this can be told from its answers. A chat gives out the newest of all
records that were ever saved for it, those left out whose lifetime has ended
(`Store.answers_after`).

The reference is `Store.window` over `logOf`, which deletes nothing: every record that a call saves
for a chat, in the order of the calls, with the time of its save. `Store.Remembers` ties a store to
the calls that were made of it, and each call keeps that (`Remembers.answer`): what has ended once
has ended for all later times (`isLive_of_le`), so what a save drops is not missed.
-/

namespace ChatRelay

open Json (Object)

namespace Instant

/-- The first instant there is: the beginning of the year -262143. -/
def first : Instant := ⟨-8334601228800000000000⟩

/-- The instant lies between the first and the last that there are. -/
def IsRepresentable (t : Instant) : Prop :=
  first.nanoseconds ≤ t.nanoseconds ∧ t.nanoseconds ≤ last.nanoseconds

instance (t : Instant) : Decidable t.IsRepresentable :=
  inferInstanceAs (Decidable (_ ∧ _))

/-- The instant a number of nanoseconds later. -/
def later (t : Instant) (n : Nat) : Instant :=
  ⟨t.nanoseconds + n⟩

/-- At the instant, the end of a lifetime can be computed. -/
structure Admits (lifetime : Option Nat) (t : Instant) : Prop where
  representable : t.IsRepresentable
  ends : ∀ n ∈ lifetime, (t.later n).IsRepresentable

end Instant

/-! ### Calls of a store -/

/-- What may be asked of a store. -/
inductive StoreCall where
  | save (session chat : String) (records : List Record) (metadata : Object)
  | history (session chat : String)
  | chats (session : String)
  | rename (session chat title : String)

/-- What a store answers. -/
inductive StoreAnswer where
  | done
  | records (rs : List Record)
  | summaries (cs : List ChatSummary)
  | refused (f : Failure)
  /-- The end of a lifetime cannot be computed. -/
  | crashed

/-- A call and its time. -/
structure TimedCall where
  now : Instant
  call : StoreCall

namespace Store

/-- What a store answers to a call, and the store after it. A call that fails leaves it as it is. -/
def answer (s : Store) (now : Instant) : StoreCall → StoreAnswer × Store
  | .save session chat records metadata =>
    match s.save now session chat records metadata with
    | .saved t => (.done, t)
    | .refused f => (.refused f, s)
    | .crashed => (.crashed, s)
  | .history session chat => (.records (s.history now session chat), s)
  | .chats session => (.summaries (s.chatsOf session), s)
  | .rename session chat title =>
    match s.rename session chat title with
    | .ok t => (.done, t)
    | .error f => (.refused f, s)

/-- The store after calls, one after another. -/
def after (s : Store) (calls : List TimedCall) : Store :=
  calls.foldl (fun s c => (s.answer c.now c.call).2) s

end Store

namespace TimedCall

/-- Whether a call is a save for a chat. A save without a session is for none. -/
def savesTo (key : String × String) (c : TimedCall) : Bool :=
  match c.call with
  | .save session chat _ _ => session != "" && (session, chat) == key
  | _ => false

/-- Whether a call names a chat. -/
def concerns (key : String × String) (c : TimedCall) : Bool :=
  match c.call with
  | .save session chat _ _ => (session, chat) == key
  | .history session chat => (session, chat) == key
  | .chats _ => false
  | .rename session chat _ => (session, chat) == key

/-- The records that a call gives to a store. -/
def records (c : TimedCall) : List Record :=
  match c.call with
  | .save _ _ records _ => records
  | _ => []

/-- A save with a session is one for its chat. -/
theorem savesTo_save {session : String} (hsession : session ≠ "") (chat : String)
    (records : List Record) (metadata : Object) (now : Instant) (key : String × String) :
    savesTo key ⟨now, .save session chat records metadata⟩ = true ↔ key = (session, chat) := by
  simp [savesTo, hsession, eq_comm (a := key)]

/-- A save for a chat names it. -/
theorem concerns_of_savesTo {key : String × String} {c : TimedCall} (h : c.savesTo key = true) :
    c.concerns key = true := by
  obtain ⟨now, call⟩ := c
  cases call with
  | save session chat records metadata => exact (Bool.and_eq_true_iff.1 h).2
  | history session chat => exact nomatch h
  | chats session => exact nomatch h
  | rename session chat title => exact nomatch h

end TimedCall

/-- All records that calls save for a chat, in their order, each with the time of its save. -/
def logOf (key : String × String) (calls : List TimedCall) : List (Instant × Record) :=
  (calls.filter (·.savesTo key)).flatMap fun c => c.records.map (c.now, ·)

namespace Store

/-- Whether a record that was saved at a time lives at another. -/
def lives (lifetime : Option Nat) (now saved : Instant) : Bool :=
  lifetime.all fun n => now.nanoseconds < (saved.later n).nanoseconds

/-- The newest of the records that live. -/
def window (maxSize : Nat) (lifetime : Option Nat) (now : Instant)
    (log : List (Instant × Record)) : List Record :=
  newest maxSize ((log.filter fun r => lives lifetime now r.1).map Prod.snd)

/-- The records that are kept for a chat, whether or not they live. -/
def storedFor (s : Store) (key : String × String) : List Stored :=
  (s.chats.lookup key).elim [] Chat.stored

/-- A record as a store keeps it that was saved at a time. -/
def stamped (lifetime : Option Nat) (r : Instant × Record) : Stored :=
  ⟨r.2, lifetime.map r.1.later⟩

/-! ### Chats and lifetimes -/

/-- The chat of a key among chats of which the first is given. -/
theorem lookup_cons_eq_ite (k other : String × String) (d : Chat)
    (chats : List ((String × String) × Chat)) :
    ((k, d) :: chats).lookup other = if other = k then some d else chats.lookup other := by
  rw [List.lookup_cons]
  by_cases h : other = k
  · simp [h]
  · rw [beq_eq_false_iff_ne.2 h, if_neg h]

/-- A chat that is put is found, and all others are found as before. -/
theorem lookup_putChat (key : String × String) (c : Chat)
    (chats : List ((String × String) × Chat)) (other : String × String) :
    (putChat key c chats).lookup other = if other = key then some c else chats.lookup other := by
  induction chats with
  | nil => exact lookup_cons_eq_ite key other c []
  | cons entry rest ih =>
    obtain ⟨k, d⟩ := entry
    rw [putChat]
    by_cases hk : k = key
    · subst hk
      rw [if_pos rfl, lookup_cons_eq_ite, lookup_cons_eq_ite]
      by_cases h : other = k
      · rw [if_pos h, if_pos h]
      · rw [if_neg h, if_neg h, if_neg h]
    · rw [if_neg hk, lookup_cons_eq_ite, lookup_cons_eq_ite, ih]
      by_cases h : other = k
      · rw [if_pos h, if_pos h, if_neg fun hkey => hk (h.symm.trans hkey)]
      · rw [if_neg h, if_neg h]

/-- A record that lives at some time has lived at all times before. -/
theorem isLive_of_le {r : Stored} {now t : Instant} (hle : now.nanoseconds ≤ t.nanoseconds)
    (h : r.isLive t = true) : r.isLive now = true := by
  unfold Stored.isLive at *
  cases hends : r.expiresAt with
  | none => rfl
  | some ends =>
    rw [hends, Option.all_some, decide_eq_true_iff] at h
    rw [Option.all_some, decide_eq_true_iff]
    omega

/-- What is dropped at one time is not missed later. -/
theorem filter_isLive_filter {now t : Instant} (hle : now.nanoseconds ≤ t.nanoseconds)
    (l : List Stored) :
    (l.filter (·.isLive now)).filter (·.isLive t) = l.filter (·.isLive t) := by
  rw [List.filter_filter]
  refine List.filter_congr fun r _ => ?_
  cases h : r.isLive t with
  | false => simp
  | true => simp [isLive_of_le hle h]

/-- The end that is kept with a record is the end of its lifetime. -/
theorem isLive_stamped (lifetime : Option Nat) (r : Instant × Record) (t : Instant) :
    (stamped lifetime r).isLive t = lives lifetime t r.1 := by
  unfold Stored.isLive stamped lives
  cases lifetime <;> rfl

/-- The window shows what a store that drops nothing would give out. -/
theorem window_eq (maxSize : Nat) (lifetime : Option Nat) (t : Instant)
    (log : List (Instant × Record)) :
    window maxSize lifetime t log =
      newest maxSize (((log.map (stamped lifetime)).filter (·.isLive t)).map Stored.record) := by
  have hlives : ((·.isLive t) ∘ stamped lifetime) = fun r => lives lifetime t r.1 :=
    funext fun r => isLive_stamped lifetime r t
  have hrecord : Stored.record ∘ stamped lifetime = Prod.snd := rfl
  rw [window, List.filter_map, List.map_map, hlives, hrecord]

/-- The end of a lifetime is computed at a save if it can be represented. A lifetime that is too
long for a duration would end after the last instant. -/
theorem expiry_eq {s : Store} {now : Instant} (h : now.Admits s.lifetime) :
    s.expiry now =
      match s.lifetime with
      | none => .never
      | some n => .ends (now.later n) := by
  unfold expiry
  cases hlife : s.lifetime with
  | none => rfl
  | some n =>
    have ⟨hfirst, _⟩ := h.representable
    have ⟨_, hlast⟩ := h.ends n (by rw [hlife]; rfl)
    simp only [Instant.first, Instant.last, Instant.later] at hfirst hlast
    have hduration : ¬longestDuration < n := by
      simp only [longestDuration, Nat.pow_eq, Nat.reducePow, Nat.reduceSub, Nat.reduceMul]
      omega
    have hrepresentable : ¬Instant.last.nanoseconds < now.nanoseconds + n := by
      simp only [Instant.last]
      omega
    dsimp only
    rw [if_neg hduration, if_neg hrepresentable]
    rfl

/-! ### What a store remembers -/

/-- A store, of some size and lifetime, that calls have been made of. What it keeps for a chat and
still lives, at the last call or later, is what lives of all that was ever saved for the chat. -/
structure Remembers (maxSize : Nat) (lifetime : Option Nat) (calls : List TimedCall) (s : Store) :
    Prop where
  maxSize_eq : s.maxSize = maxSize
  lifetime_eq : s.lifetime = lifetime
  known : ∀ key, (s.chats.lookup key).isSome = calls.any (·.savesTo key)
  live : ∀ key (t : Instant), (∀ c ∈ calls, c.now.nanoseconds ≤ t.nanoseconds) →
    (s.storedFor key).filter (·.isLive t) =
      ((logOf key calls).map (stamped lifetime)).filter (·.isLive t)

variable {maxSize : Nat} {lifetime : Option Nat} {calls : List TimedCall} {s : Store}

theorem remembers_unused : Remembers maxSize lifetime [] (unused maxSize lifetime) where
  maxSize_eq := rfl
  lifetime_eq := rfl
  known _ := rfl
  live _ _ _ := rfl

/-- The log of a chat grows with a save for the chat and with nothing else. -/
theorem logOf_concat (key : String × String) (calls : List TimedCall) (c : TimedCall) :
    logOf key (calls ++ [c]) =
      logOf key calls ++ if c.savesTo key then c.records.map (c.now, ·) else [] := by
  unfold logOf
  rw [List.filter_append, List.flatMap_append]
  cases h : c.savesTo key <;> simp [h]

/-- A call that saves nothing and changes no chat's records may be made. -/
theorem Remembers.quiet (h : Remembers maxSize lifetime calls s) {c : TimedCall} {s' : Store}
    (hc : ∀ key, c.savesTo key = false) (hmax : s'.maxSize = s.maxSize)
    (hlife : s'.lifetime = s.lifetime)
    (hknown : ∀ key, (s'.chats.lookup key).isSome = (s.chats.lookup key).isSome)
    (hstored : ∀ key, s'.storedFor key = s.storedFor key) :
    Remembers maxSize lifetime (calls ++ [c]) s' where
  maxSize_eq := hmax.trans h.maxSize_eq
  lifetime_eq := hlife.trans h.lifetime_eq
  known key := by
    rw [hknown, h.known, List.any_append]
    simp [hc key]
  live key t ht := by
    rw [hstored, h.live key t fun d hd => ht d (List.mem_append_left _ hd), logOf_concat, hc key,
      if_neg Bool.false_ne_true, List.append_nil]

/-- Records that are saved for a chat are put behind what was saved for it before. -/
theorem Remembers.put (h : Remembers maxSize lifetime calls s) (now : Instant)
    {session : String} (hsession : session ≠ "") (chat : String) (records : List Record)
    (metadata : Object) :
    Remembers maxSize lifetime (calls ++ [⟨now, .save session chat records metadata⟩])
      { s with
        chats := putChat (session, chat)
          (extend (s.chat? session chat) now (lifetime.map now.later) records metadata)
          s.chats } where
  maxSize_eq := h.maxSize_eq
  lifetime_eq := h.lifetime_eq
  known key := by
    have hsaves := TimedCall.savesTo_save hsession chat records metadata now key
    rw [List.any_append, ← h.known, List.any_cons, List.any_nil, Bool.or_false, lookup_putChat]
    by_cases hkey : key = (session, chat)
    · rw [if_pos hkey, hsaves.2 hkey, Bool.or_true]
      rfl
    · rw [if_neg hkey, Bool.eq_false_iff.2 (mt hsaves.1 hkey), Bool.or_false]
  live key t ht := by
    have hbefore : ∀ c ∈ calls, c.now.nanoseconds ≤ t.nanoseconds := fun c hc =>
      ht c (List.mem_append_left _ hc)
    have hnow : now.nanoseconds ≤ t.nanoseconds := ht _ (List.mem_append_right _ (.head _))
    have hsaves := TimedCall.savesTo_save hsession chat records metadata now key
    rw [logOf_concat]
    unfold storedFor
    rw [lookup_putChat]
    by_cases hkey : key = (session, chat)
    · -- A save forgets what has ended by then, and that does not live at a later time either.
      have hnew : (records.map (now, ·)).map (stamped lifetime) =
          records.map fun r => ⟨r, lifetime.map now.later⟩ := by
        rw [List.map_map]
        rfl
      have hold := h.live key t hbefore
      rw [if_pos hkey, Option.elim_some, extend, List.filter_append, filter_isLive_filter hnow,
        if_pos (hsaves.2 hkey), List.map_append, List.filter_append, ← hold]
      subst hkey
      exact congrArg _ (congrArg _ hnew.symm)
    · rw [if_neg hkey, if_neg (mt hsaves.1 hkey), List.append_nil]
      exact h.live key t hbefore

/-- A save with a session puts its records, if the end of their lifetime can be represented. -/
theorem save_eq {now : Instant} (hnow : now.Admits s.lifetime) {session : String}
    (hsession : session ≠ "") (chat : String) (records : List Record) (metadata : Object) :
    s.save now session chat records metadata =
      .saved { s with
        chats := putChat (session, chat)
          (extend (s.chat? session chat) now (s.lifetime.map now.later) records metadata)
          s.chats } := by
  rw [save, if_neg hsession, expiry_eq hnow]
  cases s.lifetime <;> rfl

/-- A chat is given a title if there is one, and its records stay. -/
theorem rename_cases (s : Store) (session chat title : String) :
    (s.chats.lookup (session, chat) = none ∧
        s.rename session chat title = .error (.storage ("chat " ++ chat ++ " not found"))) ∨
      ∃ c, s.chats.lookup (session, chat) = some c ∧
        s.rename session chat title =
          .ok { s with
            chats := putChat (session, chat) { c with title := some title } s.chats } := by
  unfold rename chat?
  cases s.chats.lookup (session, chat) with
  | none => exact .inl ⟨rfl, rfl⟩
  | some c => exact .inr ⟨c, rfl, rfl⟩

/-- Each call is remembered. -/
theorem Remembers.answer (h : Remembers maxSize lifetime calls s) {c : TimedCall}
    (hnow : c.now.Admits lifetime) :
    Remembers maxSize lifetime (calls ++ [c]) (s.answer c.now c.call).2 := by
  obtain ⟨now, call⟩ := c
  cases call with
  | history session chat => exact h.quiet (fun _ => rfl) rfl rfl (fun _ => rfl) fun _ => rfl
  | chats session => exact h.quiet (fun _ => rfl) rfl rfl (fun _ => rfl) fun _ => rfl
  | save session chat records metadata =>
    by_cases hsession : session = ""
    · subst hsession
      exact h.quiet (fun _ => rfl) rfl rfl (fun _ => rfl) fun _ => rfl
    · rw [← h.lifetime_eq] at hnow
      have hsave := save_eq hnow hsession chat records metadata
      have hput := h.put now hsession chat records metadata
      rw [← h.lifetime_eq] at hput ⊢
      dsimp only [Store.answer]
      rw [hsave]
      exact hput
  | rename session chat title =>
    dsimp only [Store.answer]
    rcases s.rename_cases session chat title with ⟨-, hrename⟩ | ⟨d, hd, hrename⟩
    · rw [hrename]
      exact h.quiet (fun _ => rfl) rfl rfl (fun _ => rfl) fun _ => rfl
    · rw [hrename]
      -- A title changes neither which chats are known nor what is stored for them.
      refine h.quiet (fun _ => rfl) rfl rfl (fun key => ?_) fun key => ?_
      · rw [lookup_putChat]
        by_cases hkey : key = (session, chat)
        · rw [if_pos hkey, hkey, hd]
          rfl
        · rw [if_neg hkey]
      · unfold storedFor
        rw [lookup_putChat]
        by_cases hkey : key = (session, chat)
        · rw [if_pos hkey, hkey, hd]
          rfl
        · rw [if_neg hkey]

/-- A store remembers all calls that were made of it. -/
theorem remembers_after (h : ∀ c ∈ calls, c.now.Admits lifetime) :
    Remembers maxSize lifetime calls ((unused maxSize lifetime).after calls) := by
  -- The induction is on the calls still to be made, from any store that remembers those before.
  suffices hrun : ∀ (before : List TimedCall) (s : Store), Remembers maxSize lifetime before s →
      Remembers maxSize lifetime (before ++ calls) (s.after calls) from
    hrun [] _ remembers_unused
  induction calls with
  | nil =>
    intro before s hs
    rw [List.append_nil]
    exact hs
  | cons c calls ih =>
    intro before s hs
    have hfirst := hs.answer (h c List.mem_cons_self)
    have hrest := ih (fun d hd => h d (List.mem_cons_of_mem _ hd)) (before ++ [c]) _ hfirst
    rw [List.append_assoc] at hrest
    exact hrest

/-- What a chat gives out at the time of the last call, or later, is its window. -/
theorem Remembers.history_eq (h : Remembers maxSize lifetime calls s) {t : Instant}
    (ht : ∀ c ∈ calls, c.now.nanoseconds ≤ t.nanoseconds) (session chat : String) :
    s.history t session chat = window maxSize lifetime t (logOf (session, chat) calls) := by
  have hlive := h.live (session, chat) t ht
  rw [window_eq, ← hlive, ← h.maxSize_eq]
  unfold history storedFor chat?
  cases s.chats.lookup (session, chat) <;> simp [newest]

/-- Calls that do not name a chat leave no trace in its log. -/
theorem logOf_filter_concerns (key : String × String) (calls : List TimedCall) :
    logOf key (calls.filter (·.concerns key)) = logOf key calls := by
  unfold logOf
  rw [List.filter_filter]
  congr 1
  refine List.filter_congr fun c _ => ?_
  cases h : c.savesTo key with
  | false => rfl
  | true => rw [TimedCall.concerns_of_savesTo h, Bool.and_true]

/-- A chat is known to a store if something has been saved for it. Another one cannot be renamed. -/
theorem Remembers.answer_rename (h : Remembers maxSize lifetime calls s) (t : Instant)
    (session chat title : String) :
    if calls.any (·.savesTo (session, chat)) then
      (s.answer t (.rename session chat title)).1 = .done
    else
      s.answer t (.rename session chat title) =
        (.refused (.storage ("chat " ++ chat ++ " not found")), s) := by
  have hknown := h.known (session, chat)
  dsimp only [Store.answer]
  rcases s.rename_cases session chat title with ⟨hchat, hrename⟩ | ⟨c, hchat, hrename⟩
  · rw [hchat] at hknown
    rw [← hknown, hrename]
    exact rfl
  · rw [hchat] at hknown
    rw [← hknown, hrename]
    exact rfl

/-- A store answers to a question for a chat's records with the newest of all that were ever saved
for the chat and still live, whatever calls were made of it, one after another. Calls that do not
name the chat might as well not have been made. A save succeeds if it has a session, and the
renaming of a chat if something was saved for it; otherwise they fail, and the store stays as it is.
-/
theorem answers_after (maxSize : Nat) (lifetime : Option Nat) {calls : List TimedCall} {t : Instant}
    (ht : ∀ c ∈ calls, c.now.nanoseconds ≤ t.nanoseconds)
    (hcalls : ∀ c ∈ calls, c.now.Admits lifetime) (session chat : String) :
    let s := (unused maxSize lifetime).after calls
    s.answer t (.history session chat) =
        (.records (window maxSize lifetime t (logOf (session, chat) calls)), s) ∧
      s.history t session chat =
        ((unused maxSize lifetime).after (calls.filter (·.concerns (session, chat)))).history t
          session chat ∧
      (∀ records metadata,
        s.answer t (.save "" chat records metadata) =
            (.refused (.storage "session id is required"), s) ∧
          (session ≠ "" → t.Admits lifetime →
            (s.answer t (.save session chat records metadata)).1 = .done)) ∧
      ∀ title,
        if calls.any (·.savesTo (session, chat)) then
          (s.answer t (.rename session chat title)).1 = .done
        else
          s.answer t (.rename session chat title) =
            (.refused (.storage ("chat " ++ chat ++ " not found")), s) := by
  intro s
  have hs : Remembers maxSize lifetime calls s := remembers_after hcalls
  have hhistory := hs.history_eq ht session chat
  refine ⟨?_, ?_, fun records metadata => ⟨rfl, fun hsession hnow => ?_⟩,
    hs.answer_rename t session chat⟩
  · dsimp only [Store.answer]
    rw [hhistory]
  · have hown : Remembers maxSize lifetime (calls.filter (·.concerns (session, chat)))
        ((unused maxSize lifetime).after (calls.filter (·.concerns (session, chat)))) :=
      remembers_after fun c hc => hcalls c (List.mem_filter.1 hc).1
    rw [hhistory, hown.history_eq (fun c hc => ht c (List.mem_filter.1 hc).1),
      logOf_filter_concerns]
  · rw [← hs.lifetime_eq] at hnow
    dsimp only [Store.answer]
    rw [save_eq hnow hsession]

/-- Saves for two chats, at intervals of some seconds. Meanwhile one chat is renamed. -/
def twoChats : List TimedCall := [
  ⟨⟨0⟩, .save "s" "a" [.ofUser "1" "u", .ofUser "2" "u"] []⟩,
  ⟨⟨4000000000⟩, .save "s" "b" [.ofUser "3" "u"] []⟩,
  ⟨⟨5000000000⟩, .rename "s" "b" "title"⟩,
  ⟨⟨6000000000⟩, .save "s" "a" [.ofUser "4" "u"] []⟩,
  ⟨⟨12000000000⟩, .save "s" "a" [.ofUser "5" "u", .ofUser "6" "u"] []⟩]

/-- In a store of two records for each chat that live for ten seconds, the first records of a chat
end while the others of the chat live. -/
theorem answers_after_twoChats :
    let s := (unused 2 (some 10000000000)).after twoChats
    (s.answer ⟨13000000000⟩ (.history "s" "a")).1 = .records [.ofUser "5" "u", .ofUser "6" "u"] ∧
      (s.answer ⟨13000000000⟩ (.history "s" "b")).1 = .records [.ofUser "3" "u"] := by
  have ht : ∀ c ∈ twoChats, c.now.nanoseconds ≤ 13000000000 := by decide
  have hends : ∀ c ∈ twoChats, c.now.IsRepresentable ∧
      (c.now.later 10000000000).IsRepresentable := by decide
  have hcalls : ∀ c ∈ twoChats, c.now.Admits (some 10000000000) := fun c hc =>
    ⟨(hends c hc).1, fun n hn => Option.some.inj hn ▸ (hends c hc).2⟩
  have ha := (answers_after 2 _ (t := ⟨13000000000⟩) ht hcalls "s" "a").1
  have hb := (answers_after 2 _ (t := ⟨13000000000⟩) ht hcalls "s" "b").1
  intro s
  constructor
  · rw [ha]
    rfl
  · rw [hb]
    rfl

end Store

end ChatRelay
