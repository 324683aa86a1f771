import ChatRelay.Turn.Flow

/-!
# Runs of flows

How the run of a flow is made of the runs of its parts. Flows are a lawful monad, and a flow after
which another follows has either failed or gone on (`run_bind_of_error`, `run_bind_of_ok`).

`Flow.Obeys` bounds what a flow may do in any world: which events it may cause and how it may fail
while the client is there. It also states that the client has hung up after a flow exactly if it had
before or did so among the events. Every flow that is built of others obeys what its parts obey.
`Flow.Yields` bounds in the same way the values to which a flow comes.
-/

namespace ChatRelay

namespace Flow

variable {σ α β : Type}

/-! ### One flow after another -/

/-- A flow that fails is the end. -/
theorem run_bind_of_error {f : Flow σ α} {w : σ} {h : Bool} {x : Failure}
    (hf : (f.run w h).value = .error x) (next : α → Flow σ β) :
    (f >>= next).run w h =
      ⟨.error x, (f.run w h).events, (f.run w h).world, (f.run w h).hungUp⟩ := by
  rw [run_bind]
  rcases hrun : f.run w h with ⟨value, events, w', h'⟩
  rw [hrun] at hf
  cases hf
  rfl

/-- A flow that comes to a value goes on with it. -/
theorem run_bind_of_ok {f : Flow σ α} {w : σ} {h : Bool} {a : α}
    (hf : (f.run w h).value = .ok a) (next : α → Flow σ β) :
    (f >>= next).run w h =
      ⟨((next a).run (f.run w h).world (f.run w h).hungUp).value,
        (f.run w h).events ++ ((next a).run (f.run w h).world (f.run w h).hungUp).events,
        ((next a).run (f.run w h).world (f.run w h).hungUp).world,
        ((next a).run (f.run w h).world (f.run w h).hungUp).hungUp⟩ := by
  rw [run_bind]
  rcases hrun : f.run w h with ⟨value, events, w', h'⟩
  rw [hrun] at hf
  cases hf
  rfl

/-- What happens in a flow has happened when another follows. -/
theorem mem_events_bind {f : Flow σ α} {w : σ} {h : Bool} {ev : Event}
    (hev : ev ∈ (f.run w h).events) (next : α → Flow σ β) :
    ev ∈ ((f >>= next).run w h).events := by
  cases hf : (f.run w h).value with
  | error x =>
    rw [run_bind_of_error hf]
    exact hev
  | ok a =>
    rw [run_bind_of_ok hf]
    exact List.mem_append_left _ hev

/-- A value goes on at once. -/
@[simp] theorem pure_bind_eq (a : α) (next : α → Flow σ β) : pure a >>= next = next a := rfl

/-- A result is a value or a failure. -/
@[simp] theorem ofResult_ok (a : α) : (ofResult (.ok a) : Flow σ α) = pure a := rfl

/-- A flow that only passes its value on is the flow itself. -/
theorem bind_pure_eq (f : Flow σ α) : (f >>= pure) = f := by
  funext w h
  show (f >>= pure).run w h = f.run w h
  rw [run_bind]
  rcases f.run w h with ⟨_ | _, _, _, _⟩ <;> simp

/-- Of three flows it does not matter which two are taken together. -/
theorem bind_bind_eq {γ : Type} (f : Flow σ α) (g : α → Flow σ β) (k : β → Flow σ γ) :
    f >>= g >>= k = f >>= fun a => g a >>= k := by
  funext w h
  show (f >>= g >>= k).run w h = (f >>= fun a => g a >>= k).run w h
  cases hf : (f.run w h).value with
  | error x =>
    rw [run_bind_of_error hf, run_bind_of_error (x := x)]
    all_goals rw [run_bind_of_error hf]
  | ok a =>
    rw [run_bind_of_ok hf]
    cases hg : ((g a).run (f.run w h).world (f.run w h).hungUp).value with
    | error x =>
      rw [run_bind_of_error hg, run_bind_of_error (x := x)]
      all_goals rw [run_bind_of_ok hf]
      exact hg
    | ok b =>
      rw [run_bind_of_ok hg, run_bind_of_ok (a := b)]
      all_goals rw [run_bind_of_ok hf]
      · simp
      · exact hg

instance : LawfulMonad (Flow σ) :=
  LawfulMonad.mk' (Flow σ) bind_pure_eq (fun _ _ => rfl) bind_bind_eq

/-! ### What flows may do -/

variable {p : Event → Prop} {q : Failure → Prop}

/-- In any world the events of a flow satisfy `p` and, while the client is there, its failure
satisfies `q`. Only events make the client hang up. -/
structure Obeys (p : Event → Prop) (q : Failure → Prop) (f : Flow σ α) : Prop where
  event : ∀ w h, ∀ ev ∈ (f.run w h).events, p ev
  failure : ∀ w h x, (f.run w h).value = .error x → (f.run w h).hungUp = false → q x
  hungUp_iff : ∀ w h, (f.run w h).hungUp = true ↔ h = true ∨ .hungUp ∈ (f.run w h).events

/-- Events that satisfy `p` satisfy what follows from it. -/
theorem Obeys.mono {p' : Event → Prop} {f : Flow σ α} (hf : f.Obeys p q)
    (hp : ∀ ev, p ev → p' ev) : f.Obeys p' q where
  event w h ev hev := hp ev (hf.event w h ev hev)
  failure := hf.failure
  hungUp_iff := hf.hungUp_iff

/-- Any events are events. -/
theorem Obeys.anyEvent {f : Flow σ α} (hf : f.Obeys p q) : f.Obeys (fun _ => True) q :=
  hf.mono fun _ _ => trivial

/-- If the client does not hang up during a flow, it has not done so after it. -/
theorem Obeys.hungUp_eq_false {f : Flow σ α} (hf : f.Obeys p q) {w : σ}
    (h : .hungUp ∉ (f.run w false).events) : (f.run w false).hungUp = false := by
  cases hh : (f.run w false).hungUp with
  | false => rfl
  | true =>
    rcases (hf.hungUp_iff w false).1 hh with hfalse | hev
    · exact nomatch hfalse
    · exact absurd hev h

/-- A flow and then another that depends on its value. It is enough to know the other one for the
values to which the first can come. -/
theorem Obeys.bindOf {f : Flow σ α} {next : α → Flow σ β} (hf : f.Obeys p q)
    (hnext : ∀ w h a, (f.run w h).value = .ok a → (next a).Obeys p q) :
    (f >>= next).Obeys p q where
  event w h ev hev := by
    cases hv : (f.run w h).value with
    | error x =>
      rw [run_bind_of_error hv] at hev
      exact hf.event w h ev hev
    | ok a =>
      rw [run_bind_of_ok hv] at hev
      rcases List.mem_append.1 hev with hev | hev
      · exact hf.event w h ev hev
      · exact (hnext w h a hv).event _ _ ev hev
  failure w h x hx hh := by
    cases hv : (f.run w h).value with
    | error y =>
      rw [run_bind_of_error hv] at hx hh
      cases hx
      exact hf.failure w h x hv hh
    | ok a =>
      rw [run_bind_of_ok hv] at hx hh
      exact (hnext w h a hv).failure _ _ x hx hh
  hungUp_iff w h := by
    cases hv : (f.run w h).value with
    | error x =>
      rw [run_bind_of_error hv]
      exact hf.hungUp_iff w h
    | ok a =>
      rw [run_bind_of_ok hv]
      show ((next a).run _ _).hungUp = true ↔ _
      rw [(hnext w h a hv).hungUp_iff, hf.hungUp_iff, List.mem_append, or_assoc]

/-- A flow and then another, whatever value the first comes to. -/
theorem Obeys.bind {f : Flow σ α} {next : α → Flow σ β} (hf : f.Obeys p q)
    (hnext : ∀ a, (next a).Obeys p q) : (f >>= next).Obeys p q :=
  hf.bindOf fun _ _ a _ => hnext a

/-- A result that is known. -/
theorem obeys_ofResult {r : Result α} (hr : ∀ x, r = .error x → q x) :
    (ofResult r : Flow σ α).Obeys p q where
  event _ _ _ hev := absurd hev List.not_mem_nil
  failure _ _ x hx _ := hr x hx
  hungUp_iff _ _ := by simp

/-- A value that is known. -/
theorem obeys_pure (a : α) : (pure a : Flow σ α).Obeys p q :=
  obeys_ofResult nofun

/-- A failure that is known. -/
theorem obeys_fail {x : Failure} (hx : q x) : (fail x : Flow σ α).Obeys p q :=
  obeys_ofResult fun _ h => by
    cases h
    exact hx

/-- An event other than the client's hanging up. -/
theorem obeys_tell {ev : Event} (hp : p ev) (hh : ev ≠ .hungUp) :
    (tell [ev] : Flow σ Unit).Obeys p q where
  event _ _ ev' hev := by
    rwa [List.mem_singleton.1 hev]
  failure _ _ _ hx := nomatch hx
  hungUp_iff _ _ := by simp [hh.symm]

/-- A frame is sent. -/
theorem obeys_send {f : Frame} (hp : p (.frame f)) : (send f : Flow σ Unit).Obeys p q :=
  obeys_tell hp nofun

/-- A collaborator is called, and the client may hang up. -/
theorem obeys_call (c : Call σ α) (hp : p .hungUp) : (call c).Obeys p q where
  event w h ev hev := by
    have hmem : ev ∈ if (c w).hungUp then [Event.hungUp] else [] := hev
    split at hmem
    · rw [List.mem_singleton.1 hmem]
      exact hp
    · exact absurd hmem List.not_mem_nil
  failure _ _ _ hx := nomatch hx
  hungUp_iff w h := by
    show (h || (c w).hungUp) = true ↔
      h = true ∨ .hungUp ∈ if (c w).hungUp then [Event.hungUp] else []
    cases (c w).hungUp <;> simp

/-- An attempt comes to the result of its flow. -/
theorem run_attempt (f : Flow σ α) (w : σ) (h : Bool) :
    f.attempt.run w h =
      ⟨.ok (f.run w h).value, (f.run w h).events, (f.run w h).world, (f.run w h).hungUp⟩ := rfl

/-- What follows an attempt depends on the result of its flow. -/
theorem run_attempt_bind (f : Flow σ α) (next : Result α → Flow σ β) (w : σ) (h : Bool) :
    (f.attempt >>= next).run w h =
      ⟨((next (f.run w h).value).run (f.run w h).world (f.run w h).hungUp).value,
        (f.run w h).events ++
          ((next (f.run w h).value).run (f.run w h).world (f.run w h).hungUp).events,
        ((next (f.run w h).value).run (f.run w h).world (f.run w h).hungUp).world,
        ((next (f.run w h).value).run (f.run w h).world (f.run w h).hungUp).hungUp⟩ :=
  run_bind_of_ok (congrArg Outcome.value (run_attempt f w h)) next

/-- What follows the question whether the client has hung up. -/
@[simp] theorem run_hasHungUp_bind (next : Bool → Flow σ β) (w : σ) (h : Bool) :
    (hasHungUp >>= next).run w h = (next h).run w h := rfl

/-- A call comes to what the collaborator answers, and the client may have hung up during it. -/
theorem run_call (c : Call σ α) (w : σ) (h : Bool) :
    (call c).run w h =
      ⟨.ok (c w).value, if (c w).hungUp then [.hungUp] else [], (c w).world, h || (c w).hungUp⟩ :=
  rfl

/-- A call that may fail comes to what the collaborator answers. -/
theorem run_ask (c : Call σ (Result α)) (w : σ) (h : Bool) :
    (ask c).run w h =
      ⟨(c w).value, ((call c).run w h).events, (c w).world, ((call c).run w h).hungUp⟩ := by
  show (call c >>= ofResult).run w h = _
  rw [run_bind_of_ok (a := (c w).value) rfl]
  simp only [run_ofResult, List.append_nil]
  rfl

/-- A collaborator is called that may fail. -/
theorem obeys_ask {c : Call σ (Result α)} (hp : p .hungUp)
    (hq : ∀ w x, (c w).value = .error x → q x) : (ask c).Obeys p q where
  event w h ev hev := by
    rw [run_ask] at hev
    exact (obeys_call (q := q) c hp).event w h ev hev
  failure w h x hx _ := by
    rw [run_ask] at hx
    exact hq w x hx
  hungUp_iff w h := by
    rw [run_ask]
    exact (obeys_call (q := q) c hp).hungUp_iff w h

/-- After a flow that is attempted its failure is a value. -/
theorem Obeys.attempt {f : Flow σ α} (hf : f.Obeys p q) {q' : Failure → Prop} :
    f.attempt.Obeys p q' where
  event := hf.event
  failure _ _ _ hx := nomatch hx
  hungUp_iff := hf.hungUp_iff

/-- A flow that begins only if the client is there. -/
theorem Obeys.unlessHungUp {f : Flow σ α} (hf : f.Obeys p q) :
    (do if ← hasHungUp then fail .canceled else f : Flow σ α).Obeys p q where
  event w h ev hev := by
    cases h with
    | true => exact absurd hev List.not_mem_nil
    | false => exact hf.event w false ev hev
  failure w h x hx hh := by
    cases h with
    | true => exact absurd hh nofun
    | false => exact hf.failure w false x hx hh
  hungUp_iff w h := by
    cases h with
    | true => exact ⟨fun _ => .inl rfl, fun _ => rfl⟩
    | false => exact hf.hungUp_iff w false

/-! ### What flows come to -/

/-- The values to which a flow comes, in any world, satisfy `P`. -/
def Yields (P : α → Prop) (f : Flow σ α) : Prop :=
  ∀ w h a, (f.run w h).value = .ok a → P a

/-- A value that is known. -/
theorem yields_pure {P : α → Prop} {a : α} (ha : P a) : (pure a : Flow σ α).Yields P := by
  intro w h b hb
  cases hb
  exact ha

/-- A flow that fails comes to no value. -/
theorem yields_fail {P : α → Prop} (x : Failure) : (fail x : Flow σ α).Yields P := by
  intro w h a ha
  exact nomatch ha

/-- A flow and then another, which is known for the values of the first. -/
theorem Yields.bind {P : α → Prop} {Q : β → Prop} {f : Flow σ α} {next : α → Flow σ β}
    (hf : f.Yields P) (hnext : ∀ a, P a → (next a).Yields Q) : (f >>= next).Yields Q := by
  intro w h b hb
  cases hv : (f.run w h).value with
  | error x =>
    rw [run_bind_of_error hv] at hb
    exact nomatch hb
  | ok a =>
    rw [run_bind_of_ok hv] at hb
    exact hnext a (hf w h a hv) _ _ b hb

/-- A flow and then another, which is known for all values. -/
theorem yields_bind {Q : β → Prop} {f : Flow σ α} {next : α → Flow σ β}
    (hnext : ∀ a, (next a).Yields Q) : (f >>= next).Yields Q := by
  have hf : f.Yields fun _ => True := fun _ _ _ _ => trivial
  exact hf.bind fun a _ => hnext a

end Flow

end ChatRelay
