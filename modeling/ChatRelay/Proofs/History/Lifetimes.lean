import ChatRelay.History.Memory
import ChatRelay.Proofs.History.Listing

/-!
# Lifetimes of any length

A lifetime is set in seconds, and any number of sixty-four bits may be set. One that is too long for
a duration is taken for none: the store then answers every call as a store in which nothing ends
(`after_unlimited`, `answer_unlimited`). One that is a duration is added to the time of the save,
and the save ends there if the sum lies after the last instant.

So there are lifetimes with which no save is carried out. Which ones they are is told for every time
(`save_after_ofSettings`).
-/

namespace ChatRelay

open Json (Object)

namespace Store

/-! ### Saves and lifetimes -/

/-- A lifetime ends after the last instant, although it is short enough for a duration. -/
def Overruns (lifetime : Option Nat) (now : Instant) : Prop :=
  ∃ n ∈ lifetime, n ≤ longestDuration ∧
    Instant.last.nanoseconds < (now.later n).nanoseconds

/-- No expiry can be stored exactly if the lifetime overruns the calendar. -/
theorem expiry_eq_unrepresentable_iff (s : Store) (now : Instant) :
    s.expiry now = .unrepresentable ↔ Overruns s.lifetime now := by
  unfold expiry Overruns
  cases s.lifetime with
  | none => simp
  | some n =>
    simp only [Option.mem_some_iff, exists_eq_left', Instant.later]
    split
    · next hlong => simp [Nat.not_le_of_lt hlong]
    · next hshort =>
      rw [and_iff_right (Nat.le_of_not_lt hshort)]
      split
      · next hlast => exact iff_of_true rfl hlast
      · next hlast => simp [hlast]

/-- A lifetime that is longer than any duration never ends. -/
theorem expiry_eq_never {s : Store} (hlong : ∀ n ∈ s.lifetime, longestDuration < n)
    (now : Instant) : s.expiry now = .never := by
  unfold expiry
  cases hlife : s.lifetime with
  | none => rfl
  | some n => exact if_pos (hlong n hlife)

/-- A save with a session is carried out unless the lifetime overruns. -/
theorem answer_save_eq_done_iff (s : Store) (now : Instant) {session : String}
    (hsession : session ≠ "") (chat : String) (records : List Record) (metadata : Object) :
    (s.answer now (.save session chat records metadata)).1 = .done ↔
      ¬Overruns s.lifetime now := by
  rw [← expiry_eq_unrepresentable_iff]
  dsimp only [answer]
  rw [save, if_neg hsession]
  cases s.expiry now with
  | never => simp
  | ends t => simp
  | unrepresentable => simp

/-- Where the lifetime overruns, a save changes nothing. -/
theorem answer_save_of_overruns {s : Store} {now : Instant} (hoverruns : Overruns s.lifetime now)
    {session : String} (hsession : session ≠ "") (chat : String) (records : List Record)
    (metadata : Object) :
    s.answer now (.save session chat records metadata) = (.crashed, s) := by
  have hexpiry := (s.expiry_eq_unrepresentable_iff now).mpr hoverruns
  dsimp only [answer]
  rw [save, if_neg hsession, hexpiry]

/-- A call does not change how long records live. -/
theorem lifetime_answer (s : Store) (c : TimedCall) :
    (s.answer c.now c.call).2.lifetime = s.lifetime := by
  cases s.outcome c with
  | saved _ _ hanswer => rw [hanswer]
  | renamed _ _ hanswer => rw [hanswer]
  | unchanged _ hstore => rw [hstore]

/-- No call changes the lifetime of a store. -/
theorem lifetime_after (s : Store) (calls : List TimedCall) :
    (s.after calls).lifetime = s.lifetime := by
  induction calls generalizing s with
  | nil => rfl
  | cons c calls ih => exact (ih _).trans (s.lifetime_answer c)

/-! ### Stores in which nothing ends -/

/-- A store whose records will not end. -/
def unlimited (s : Store) : Store :=
  { s with lifetime := none }

/-- Where the lifetime is too long for a duration, a call is answered as if there were none. -/
theorem answer_unlimited {s : Store} (hlong : ∀ n ∈ s.lifetime, longestDuration < n)
    (now : Instant) (call : StoreCall) :
    s.unlimited.answer now call = ((s.answer now call).1, (s.answer now call).2.unlimited) := by
  cases call with
  | history session chat => rfl
  | chats session => rfl
  | save session chat records metadata =>
    have hnever : s.expiry now = .never := expiry_eq_never hlong now
    have hunlimited : s.unlimited.expiry now = .never := rfl
    dsimp only [answer]
    rw [save, save, hnever, hunlimited]
    by_cases hsession : session = ""
    · rw [if_pos hsession, if_pos hsession]
    · rw [if_neg hsession, if_neg hsession]
      rfl
  | rename session chat title =>
    have hchat : s.unlimited.chat? session chat = s.chat? session chat := rfl
    dsimp only [answer]
    rw [rename, rename, hchat]
    cases s.chat? session chat <;> rfl

/-- A store whose lifetime never ends goes on like one without any. -/
theorem after_unlimited {s : Store} (hlong : ∀ n ∈ s.lifetime, longestDuration < n)
    (calls : List TimedCall) : s.unlimited.after calls = (s.after calls).unlimited := by
  induction calls generalizing s with
  | nil => rfl
  | cons c calls ih =>
    have hfirst := congrArg Prod.snd (answer_unlimited hlong c.now c.call)
    have hrest := ih (s := (s.answer c.now c.call).2) (by rwa [lifetime_answer])
    show (s.unlimited.answer c.now c.call).2.after calls = _
    rw [hfirst]
    exact hrest

/-! ### Set lifetimes -/

theorem lifetime_ofSettings (settings : Settings) :
    (ofSettings settings).lifetime = settings.historyLifetime.map (· * 1000000000) := rfl

/-- A lifetime of so many seconds does not overrun if it ends before the last instant, or never. -/
theorem not_overruns_ofSettings_iff (settings : Settings) (now : Instant) :
    ¬Overruns (ofSettings settings).lifetime now ↔
      ∀ seconds ∈ settings.historyLifetime,
        (now.later (seconds * 1000000000)).nanoseconds ≤ Instant.last.nanoseconds ∨
          longestDuration < seconds * 1000000000 := by
  rw [lifetime_ofSettings]
  constructor
  · intro hends seconds hseconds
    by_contra hband
    rw [not_or, Int.not_le, Nat.not_lt] at hband
    exact hends ⟨_, Option.mem_map_of_mem _ hseconds, hband.2, hband.1⟩
  · rintro hends ⟨n, hn, hduration, hlast⟩
    obtain ⟨seconds, hseconds, rfl⟩ := Option.map_eq_some_iff.mp hn
    rcases hends seconds hseconds with hle | hlong
    · exact Int.not_lt.mpr hle hlast
    · exact Nat.not_lt.mpr hduration hlong

/-- A store of some settings, after whatever calls, carries out a save with a session exactly if the
lifetime that is set ends at the last instant or before, or is too long for a duration. In the
latter case nothing tells the store from one without a lifetime. A lifetime in between ends the
save. -/
theorem save_after_ofSettings (settings : Settings) (calls : List TimedCall) (now : Instant)
    {session : String} (hsession : session ≠ "") (chat : String) (records : List Record)
    (metadata : Object) :
    let s := (ofSettings settings).after calls
    let unlimited := (ofSettings { settings with historyLifetime := none }).after calls
    ((s.answer now (.save session chat records metadata)).1 = .done ↔
        ∀ seconds ∈ settings.historyLifetime,
          (now.later (seconds * 1000000000)).nanoseconds ≤ Instant.last.nanoseconds ∨
            longestDuration < seconds * 1000000000) ∧
      ∀ seconds ∈ settings.historyLifetime,
        Instant.last.nanoseconds < (now.later (seconds * 1000000000)).nanoseconds →
          if longestDuration < seconds * 1000000000 then
            ∀ t call, (s.answer t call).1 = (unlimited.answer t call).1
          else s.answer now (.save session chat records metadata) = (.crashed, s) := by
  intro s unlimited
  have hlife : s.lifetime = (ofSettings settings).lifetime := lifetime_after _ calls
  constructor
  · rw [answer_save_eq_done_iff s now hsession, hlife, not_overruns_ofSettings_iff]
  · intro seconds hseconds hlast
    split
    · next hlong =>
      have hall : ∀ n ∈ (ofSettings settings).lifetime, longestDuration < n := by
        intro n hn
        rw [lifetime_ofSettings, hseconds] at hn
        exact Option.some.inj hn ▸ hlong
      have hs : unlimited = s.unlimited := after_unlimited hall calls
      intro t call
      rw [hs, answer_unlimited (by rwa [hlife]) t call]
    · next hshort =>
      apply answer_save_of_overruns _ hsession
      rw [hlife, lifetime_ofSettings]
      exact ⟨_, Option.mem_map_of_mem _ hseconds, Nat.le_of_not_lt hshort, hlast⟩

/-- Settings with a lifetime in seconds. -/
def lasting (seconds : Nat) : Settings :=
  { historyLifetime := some seconds }

/-- With the longest lifetime that can be set, a save is carried out, and the records do not end. -/
theorem save_after_ofSettings_lasting :
    let call : StoreCall := .save "s" "c" [.ofUser "a" "u"] []
    let s := (ofSettings (lasting 18446744073709551615)).after [⟨⟨0⟩, call⟩]
    (s.answer ⟨1700000000000000000⟩ call).1 = .done ∧
      (s.answer Instant.last (.history "s" "c")).1 = .records [.ofUser "a" "u"] := by
  intro call s
  have hsession : "s" ≠ "" := by decide
  have hanswers := save_after_ofSettings (lasting 18446744073709551615) [⟨⟨0⟩, call⟩]
    ⟨1700000000000000000⟩ hsession "c" [.ofUser "a" "u"] []
  have hkept := hanswers.2 18446744073709551615 rfl (by decide)
  rw [if_pos (by decide)] at hkept
  constructor
  · apply hanswers.1.mpr
    rintro seconds ⟨⟩
    exact .inr (by decide)
  · exact hkept Instant.last (.history "s" "c")

/-- With a lifetime of some hundred thousand years, which can be set as well, a save in our time is
not carried out. -/
theorem crashed_of_lasting :
    10000000000000 < Nat.pow 2 64 ∧
      ((ofSettings (lasting 10000000000000)).answer ⟨1700000000000000000⟩
        (.save "s" "c" [.ofUser "a" "sid"] [])).1 = .crashed :=
  ⟨by decide, rfl⟩

end Store

end ChatRelay
