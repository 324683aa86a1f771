import ChatRelay.Proofs.Json.Reading
import ChatRelay.Proofs.Json.Weight
import ChatRelay.Text.Blank
import Mathlib.Tactic.IntervalCases

/-!
# Written numbers are read

A number is written with at least one digit before a point and one after it, with no zero before
other digits, and perhaps with an exponent that has a sign and a digit. `Runs` follows a reading
through the characters of a number, of which only the place that is reached matters.

Main result: every value is read in what it is written as, with nothing lost or added
(`Value.exists_reads`).
-/

namespace ChatRelay

open Decimal (Binary64)

/-! ### Shortest decimals -/

namespace Decimal

/-- A magnitude other than zero has a unit at least. -/
theorem unitsAt_pos {magnitude : Nat} (h : magnitude ≠ 0) : 0 < Binary64.unitsAt magnitude := by
  unfold Binary64.unitsAt
  split
  · omega
  · have hbinade : 0 < binade := by decide
    exact Nat.mul_pos (by omega) (Nat.pow_pos (by decide))

/-- Digits that are zero stand for zero, whatever their exponent. -/
theorem ratio_of_digits_eq_zero {d : Digits} (h : d.digits = 0) (scale : Nat) :
    (d.ratio scale).1 = 0 ∧ 0 < (d.ratio scale).2 := by
  unfold Digits.ratio
  rw [h]
  split
  · exact ⟨by rw [Nat.zero_mul, Nat.zero_mul], Nat.one_pos⟩
  · exact ⟨Nat.zero_mul _, Nat.pow_pos (by decide)⟩

/-- Zero does not read back as a positive number. -/
theorem digits_ne_zero_of_readsAs {d : Digits} {magnitude : Nat} (hpos : magnitude ≠ 0)
    (h : d.readsAs magnitude = true) : d.digits ≠ 0 := by
  intro hzero
  unfold Digits.readsAs at h
  dsimp only at h
  generalize 2 * Binary64.one = scale at h
  obtain ⟨hnum, hden⟩ := ratio_of_digits_eq_zero hzero scale
  have hunits := unitsAt_pos hpos
  have hlow : 0 < (Binary64.unitsAt (magnitude - 1) + Binary64.unitsAt magnitude) *
      (d.ratio scale).2 := Nat.mul_pos (by omega) hden
  rw [hnum] at h
  split at h
  · simp only [Bool.and_eq_true, decide_eq_true_eq] at h
    omega
  · simp only [Bool.and_eq_true, decide_eq_true_eq] at h
    omega

/-- A decimal that is found reads back as the number. -/
theorem digitsOfCount?_readsAs {magnitude count : Nat} {d : Digits}
    (h : digitsOfCount? magnitude count = some d) : d.readsAs magnitude = true := by
  unfold digitsOfCount? at h
  dsimp only at h
  -- Only which of two decimals is given matters, not what they are.
  generalize decimalExponent _ _ - (count : Int) = exponent at h
  generalize (if 0 ≤ exponent then _ else _ : Nat × Nat) = ratio at h
  split at h
  next hbelow habove =>
    rw [← Option.some.inj h]
    split
    · exact hbelow
    · exact habove
  next hbelow _ =>
    rw [← Option.some.inj h]
    exact hbelow
  next _ habove =>
    rw [← Option.some.inj h]
    exact habove
  next => exact nomatch h

/-- The shortest decimal of a positive number is positive, if one is found. -/
theorem shortest_cases {magnitude : Nat} (hpos : magnitude ≠ 0) :
    (shortest magnitude).digits ≠ 0 ∨ shortest magnitude = ⟨0, 0⟩ := by
  unfold shortest
  cases hfound : (List.range 17).findSome? fun i => digitsOfCount? magnitude (i + 1) with
  | none => exact .inr rfl
  | some d =>
    obtain ⟨i, -, hi⟩ := List.exists_of_findSome?_eq_some hfound
    exact .inl (digits_ne_zero_of_readsAs hpos (digitsOfCount?_readsAs hi))

end Decimal

namespace Json

open Reader

/-! ### Runs through a number -/

/-- From a place in a number the characters lead to another place. -/
def Runs (p : Place) (cs : List Char) (q : Place) : Prop :=
  ∀ n : Numeral, n.place = p → ∃ m, cs.foldlM Numeral.push? n = some m ∧ m.place = q

/-- No character leads anywhere else. -/
theorem runs_nil (p : Place) : Runs p [] p :=
  fun n hn => ⟨n, rfl, hn⟩

/-- A character leads to a place from which the others lead on. -/
theorem runs_cons {p q r : Place} {c : Char} {cs : List Char}
    (hc : ∀ n : Numeral, n.place = p → ∃ m, n.push? c = some m ∧ m.place = q)
    (hcs : Runs q cs r) : Runs p (c :: cs) r := by
  intro n hn
  obtain ⟨m, hpush, hm⟩ := hc n hn
  obtain ⟨l, hrest, hl⟩ := hcs m hm
  refine ⟨l, ?_, hl⟩
  rw [List.foldlM_cons, hpush]
  exact hrest

/-- Characters lead on from where others have led. -/
theorem Runs.append {p q r : Place} {a b : List Char} (ha : Runs p a q) (hb : Runs q b r) :
    Runs p (a ++ b) r := by
  intro n hn
  obtain ⟨m, hfirst, hm⟩ := ha n hn
  obtain ⟨l, hsecond, hl⟩ := hb m hm
  refine ⟨l, ?_, hl⟩
  rw [List.foldlM_append, hfirst]
  exact hsecond

/-- The digits are these ten. -/
theorem mem_of_isDigit {c : Char} (hc : c.isDigit = true) :
    c ∈ ['0', '1', '2', '3', '4', '5', '6', '7', '8', '9'] := by
  have hlow : 48 ≤ c.toNat := (Char.isDigit_iff_toNat.1 hc).1
  have hhigh : c.toNat ≤ 57 := (Char.isDigit_iff_toNat.1 hc).2
  rw [← Char.ofNat_toNat c]
  interval_cases c.toNat <;> decide

/-- The place after a digit. -/
def afterDigit : Place → Place
  | .point | .fraction => .fraction
  | .exponentMark | .exponentSign | .exponent => .exponent
  | p => p

/-- A digit may come anywhere but at the beginning of a number and after its leading zero. -/
theorem runs_digit {p : Place} {c : Char} (hc : c.isDigit = true) (hsign : p ≠ .sign)
    (hzero : p ≠ .leadingZero) : Runs p [c] (afterDigit p) := by
  obtain ⟨d, hd⟩ : ∃ d, digit? c = some d := by
    have hmem := mem_of_isDigit hc
    fin_cases hmem <;> exact ⟨_, rfl⟩
  refine runs_cons (fun n hn => ?_) (runs_nil _)
  unfold Numeral.push?
  rw [hn, hd]
  cases p with
  | sign => exact absurd rfl hsign
  | leadingZero => exact absurd rfl hzero
  | whole => exact ⟨_, rfl, rfl⟩
  | point => exact ⟨_, rfl, rfl⟩
  | fraction => exact ⟨_, rfl, rfl⟩
  | exponentMark => exact ⟨_, rfl, rfl⟩
  | exponentSign => exact ⟨_, rfl, rfl⟩
  | exponent => exact ⟨_, rfl, rfl⟩

/-- Digits lead on from a place that digits do not leave. -/
theorem runs_digits {p : Place} (hp : p = .whole ∨ p = .fraction ∨ p = .exponent)
    {ds : List Char} (hds : ∀ c ∈ ds, c.isDigit = true) : Runs p ds p := by
  induction ds with
  | nil => exact runs_nil p
  | cons c ds ih =>
    have hrest := ih fun d hd => hds d (List.mem_cons_of_mem c hd)
    have hdigit : Runs p [c] p := by
      rcases hp with rfl | rfl | rfl
      · exact runs_digit (hds c List.mem_cons_self) nofun nofun
      · exact runs_digit (hds c List.mem_cons_self) nofun nofun
      · exact runs_digit (hds c List.mem_cons_self) nofun nofun
    exact hdigit.append hrest

/-- The same for at least one digit, from a place that a digit leaves. -/
theorem runs_digits_of_ne_nil {p : Place} (hsign : p ≠ .sign) (hzero : p ≠ .leadingZero)
    {ds : List Char} (hne : ds ≠ []) (hds : ∀ c ∈ ds, c.isDigit = true) :
    Runs p ds (afterDigit p) := by
  obtain ⟨c, rest, rfl⟩ := List.exists_cons_of_ne_nil hne
  have hrest : Runs (afterDigit p) rest (afterDigit p) := by
    have hd : ∀ d ∈ rest, d.isDigit = true := fun d hd => hds d (List.mem_cons_of_mem c hd)
    cases p with
    | sign => exact absurd rfl hsign
    | leadingZero => exact absurd rfl hzero
    | whole => exact runs_digits (.inl rfl) hd
    | point => exact runs_digits (.inr (.inl rfl)) hd
    | fraction => exact runs_digits (.inr (.inl rfl)) hd
    | exponentMark => exact runs_digits (.inr (.inr rfl)) hd
    | exponentSign => exact runs_digits (.inr (.inr rfl)) hd
    | exponent => exact runs_digits (.inr (.inr rfl)) hd
  exact (runs_digit (hds c List.mem_cons_self) hsign hzero).append hrest

/-- A point may follow the whole part of a number. -/
theorem runs_point {p : Place} (hp : p = .leadingZero ∨ p = .whole) : Runs p ['.'] .point := by
  refine runs_cons (fun n hn => ?_) (runs_nil _)
  unfold Numeral.push?
  rcases hp with rfl | rfl
  · rw [hn]
    exact ⟨_, rfl, rfl⟩
  · rw [hn]
    exact ⟨_, rfl, rfl⟩

/-- The mark of an exponent with the sign after it. -/
theorem runs_exponent {p : Place} (hp : p = .whole ∨ p = .fraction) {sign : Char}
    (hsign : sign = '+' ∨ sign = '-') : Runs p ['e', sign] .exponentSign := by
  have hmark : ∀ n : Numeral, n.place = p →
      ∃ m, n.push? 'e' = some m ∧ m.place = .exponentMark := by
    intro n hn
    unfold Numeral.push?
    rcases hp with rfl | rfl
    · rw [hn]
      exact ⟨_, rfl, rfl⟩
    · rw [hn]
      exact ⟨_, rfl, rfl⟩
  refine runs_cons hmark (runs_cons (fun n hn => ?_) (runs_nil _))
  unfold Numeral.push?
  rcases hsign with rfl | rfl
  · rw [hn]
    exact ⟨_, rfl, rfl⟩
  · rw [hn]
    exact ⟨_, rfl, rfl⟩

/-! ### Numerals -/

/-- The places at which a number may end. -/
def CanEnd (p : Place) : Prop :=
  p = .leadingZero ∨ p = .whole ∨ p = .fraction ∨ p = .exponent

/-- The place after the first digit of a number. -/
def firstPlace (c : Char) : Place :=
  if c = '0' then .leadingZero else .whole

/-- The text is the beginning of a number without a sign, up to a place. -/
def Leads (text : List Char) (q : Place) : Prop :=
  ∃ c rest, text = c :: rest ∧ c.isDigit = true ∧ Runs (firstPlace c) rest q

/-- The text of a number without a sign. -/
def IsNumeral (text : List Char) : Prop :=
  ∃ q, Leads text q ∧ CanEnd q

/-- The beginning of a number is continued by what leads on from its place. -/
theorem Leads.append {a b : List Char} {p q : Place} (ha : Leads a p) (hb : Runs p b q) :
    Leads (a ++ b) q := by
  obtain ⟨c, rest, rfl, hc, hrest⟩ := ha
  exact ⟨c, rest ++ b, rfl, hc, hrest.append hb⟩

/-- A zero is the beginning of a number. -/
theorem leads_zero : Leads ['0'] .leadingZero :=
  ⟨'0', [], rfl, rfl, runs_nil _⟩

/-- Digits that do not begin with zero begin a number. -/
theorem leads_digits {c : Char} {rest : List Char} (hc : c ≠ '0')
    (hds : ∀ d ∈ c :: rest, d.isDigit = true) : Leads (c :: rest) .whole := by
  refine ⟨c, rest, rfl, hds c List.mem_cons_self, ?_⟩
  rw [firstPlace, if_neg hc]
  exact runs_digits (.inl rfl) fun d hd => hds d (List.mem_cons_of_mem c hd)

/-- A number may end if its place is one where it may. -/
theorem canEnd_of_place {n : Numeral} (h : CanEnd n.place) : n.canEnd = true := by
  unfold Numeral.canEnd
  rcases h with h | h | h | h <;> rw [h]

/-- A mark is no part of a number. -/
theorem push?_of_isMark (n : Numeral) {c : Char} (hc : isMark c = true) :
    n.push? c = none ∧ digit? c = none := by
  have hcases : c = ',' ∨ c = ']' ∨ c = '}' := by simpa [isMark, or_assoc] using hc
  unfold Numeral.push?
  rcases hcases with rfl | rfl | rfl <;> cases n.place <;> exact ⟨rfl, rfl⟩

/-- While a number is read, the state moves with it. -/
theorem readAll?_number (stack : List Container) {n m : Numeral} {rest : List Char}
    (h : rest.foldlM Numeral.push? n = some m) (cs : List Char) :
    (State.mk stack (.number n)).readAll? (rest ++ cs) =
      (State.mk stack (.number m)).readAll? cs := by
  induction rest generalizing n with
  | nil =>
    cases h
    rfl
  | cons c rest ih =>
    rw [List.foldlM_cons] at h
    obtain ⟨next, hpush, hrest⟩ := Option.bind_eq_some_iff.1 h
    have hread : (State.mk stack (.number n)).read? c = some ⟨stack, .number next⟩ := by
      rw [State.read?]
      dsimp only
      rw [hpush]
    rw [List.cons_append, readAll?_cons hread, ih hrest]

/-- A number is over at a mark. -/
theorem readAll?_number_mark {stack : List Container} (hstack : stack ≠ []) {n : Numeral}
    (hn : n.canEnd = true) {c : Char} (hc : isMark c = true) (cs : List Char) :
    (State.mk stack (.number n)).readAll? (c :: cs) =
      (completed stack (.number n.literal)).bind fun s => s.readAll? (c :: cs) := by
  obtain ⟨hpush, hdigit⟩ := push?_of_isMark n hc
  obtain ⟨top, outer, rfl⟩ := List.exists_cons_of_ne_nil hstack
  have hread : (State.mk (top :: outer) (.number n)).read? c =
      (completed (top :: outer) (.number n.literal)).bind fun s => separated s.stack c := by
    rw [State.read?]
    dsimp only
    rw [hpush, hn, hdigit]
    rfl
  rw [State.readAll?, List.foldlM_cons, hread]
  cases top <;> rfl

/-- A number is read whose characters lead to a place where it may end. -/
theorem reads_number {c : Char} {rest : List Char} {n m : Numeral} (hspace : isSpace c = false)
    (hend : c ≠ ']') (hbegun : ∀ stack, begun stack c = some ⟨stack, .number n⟩)
    (hrest : rest.foldlM Numeral.push? n = some m) (hm : CanEnd m.place) :
    Reads (c :: rest) (.number m.literal) where
  begins := ⟨c, rest, rfl, hspace, hend⟩
  readAll stack mark hstack hmark cs := by
    have hread : (State.mk stack .value).read? c = some ⟨stack, .number n⟩ := by
      rw [State.read?]
      dsimp only
      rw [hspace, hbegun]
      rfl
    rw [List.cons_append, readAll?_cons hread, readAll?_number stack hrest,
      readAll?_number_mark hstack (canEnd_of_place hm) hmark]

/-- A number is read with and without a sign. -/
theorem IsNumeral.exists_reads {text : List Char} (h : IsNumeral text) (negative : Bool) :
    ∃ l, Reads ((if negative then ['-'] else []) ++ text) (.number l) := by
  obtain ⟨q, ⟨c, rest, rfl, hc, hruns⟩, hq⟩ := h
  have hmem := mem_of_isDigit hc
  cases negative with
  | false =>
    obtain ⟨n, hbegun, hplace⟩ : ∃ n : Numeral,
        (∀ stack, begun stack c = some ⟨stack, .number n⟩) ∧ n.place = firstPlace c := by
      fin_cases hmem <;> exact ⟨_, fun _ => rfl, rfl⟩
    obtain ⟨m, hrest, hm⟩ := hruns n hplace
    have hspace : isSpace c = false ∧ c ≠ ']' := by
      fin_cases hmem <;> exact ⟨rfl, by decide⟩
    exact ⟨_, reads_number hspace.1 hspace.2 hbegun hrest (hm ▸ hq)⟩
  | true =>
    have hfirst : Runs .sign [c] (firstPlace c) := by
      refine runs_cons (fun n hn => ?_) (runs_nil _)
      unfold Numeral.push?
      rw [hn]
      fin_cases hmem <;> exact ⟨_, rfl, rfl⟩
    obtain ⟨m, hrest, hm⟩ := hfirst.append hruns ⟨.sign, true, [], [], false, []⟩ rfl
    exact ⟨_, reads_number rfl (by decide) (fun _ => rfl) hrest (hm ▸ hq)⟩

/-! ### Whole numbers -/

/-- The digits of a number begin with zero only if it is zero. -/
theorem exists_toDigits_eq_cons {n : Nat} (hn : n ≠ 0) :
    ∃ c rest, Nat.toDigits 10 n = c :: rest ∧ c ≠ '0' := by
  induction n using Nat.strongRecOn with
  | ind n ih =>
    by_cases hlt : n < 10
    · refine ⟨_, [], Nat.toDigits_of_lt_base hlt, ?_⟩
      interval_cases n
      · exact absurd rfl hn
      all_goals decide
    · obtain ⟨c, rest, hdigits, hc⟩ := ih (n / 10) (by omega) (by omega)
      refine ⟨c, rest ++ [(n % 10).digitChar], ?_, hc⟩
      rw [Nat.toDigits_of_base_le (by decide) (by omega), hdigits]
      rfl

/-- Natural numbers are written in digits. -/
theorem isDigit_of_mem {n : Nat} {c : Char} (hc : c ∈ Nat.toDigits 10 n) : c.isDigit = true :=
  Nat.isDigit_of_mem_toDigits (by decide) (by decide) hc

/-- A natural number is written as a number. -/
theorem isNumeral_toDigits (n : Nat) : IsNumeral (Nat.toDigits 10 n) := by
  by_cases hn : n = 0
  · subst hn
    exact ⟨_, leads_zero, .inl rfl⟩
  · obtain ⟨c, rest, hdigits, hc⟩ := exists_toDigits_eq_cons hn
    rw [hdigits]
    exact ⟨_, leads_digits hc fun d hd => isDigit_of_mem (hdigits ▸ hd), .inr (.inl rfl)⟩

/-! ### Decimals -/

/-- A point with digits after it. -/
theorem Leads.point {a ds : List Char} {p : Place} (ha : Leads a p)
    (hp : p = .leadingZero ∨ p = .whole) (hne : ds ≠ []) (hds : ∀ d ∈ ds, d.isDigit = true) :
    Leads (a ++ '.' :: ds) .fraction := by
  have hdigits : Runs .point ds (afterDigit .point) :=
    runs_digits_of_ne_nil (p := .point) nofun nofun hne hds
  exact ha.append ((runs_point hp).append hdigits)

/-- An exponent has a sign and digits. -/
theorem Leads.exponent {a : List Char} {p : Place} (ha : Leads a p)
    (hp : p = .whole ∨ p = .fraction) {sign : Char} (hsign : sign = '+' ∨ sign = '-') (n : Nat) :
    Leads (a ++ ['e', sign] ++ Nat.toDigits 10 n) .exponent := by
  have hdigits : Runs .exponentSign (Nat.toDigits 10 n) (afterDigit .exponentSign) :=
    runs_digits_of_ne_nil (p := .exponentSign) nofun nofun Nat.toDigits_ne_nil fun _ hd =>
      isDigit_of_mem hd
  exact (ha.append (runs_exponent hp hsign)).append hdigits

/-- Zeros in a row are digits. -/
theorem isDigit_of_mem_replicate {n : Nat} {c : Char} (hc : c ∈ List.replicate n '0') :
    c.isDigit = true := by
  rw [List.eq_of_mem_replicate hc]
  rfl

theorem isDigit_of_mem_zero : ∀ c ∈ ['0'], c.isDigit = true := fun _ hc =>
  isDigit_of_mem_replicate (n := 1) hc

/-- The positional form of digits that do not begin with zero is the text of a number. -/
theorem isNumeral_positional {c : Char} {rest : List Char} (hc : c ≠ '0')
    (hds : ∀ d ∈ c :: rest, d.isDigit = true) (exponent : Int) :
    IsNumeral (Decimal.positional (c :: rest) exponent) := by
  refine ⟨.fraction, ?_, .inr (.inr (.inl rfl))⟩
  unfold Decimal.positional
  dsimp only
  split
  · have hwhole : Leads (c :: rest ++ List.replicate exponent.toNat '0') .whole :=
      (leads_digits hc hds).append (runs_digits (.inl rfl) fun d hd => isDigit_of_mem_replicate hd)
    exact hwhole.point (.inr rfl) (List.cons_ne_nil _ _) isDigit_of_mem_zero
  next hneg =>
    split
    next hwhole =>
      -- The point stands among the digits, before the last of them.
      obtain ⟨n, hn⟩ : ∃ n, (((c :: rest).length : Int) + exponent).toNat = n + 1 :=
        ⟨_, (Nat.succ_pred (by omega)).symm⟩
      have hdrop : (c :: rest).drop (n + 1) ≠ [] := by
        rw [Ne, List.drop_eq_nil_iff]
        omega
      have htake : ∀ d ∈ c :: rest.take n, d.isDigit = true := fun d hd =>
        hds d (List.take_subset (n + 1) (c :: rest) hd)
      rw [hn]
      exact (leads_digits hc htake).point (.inr rfl) hdrop fun d hd =>
        hds d (List.drop_subset (n + 1) (c :: rest) hd)
    next =>
      have hzeros : List.replicate (-(((c :: rest).length : Int) + exponent)).toNat '0' ++
          c :: rest ≠ [] := List.append_ne_nil_of_right_ne_nil _ (List.cons_ne_nil _ _)
      refine leads_zero.point (.inl rfl) hzeros fun d hd => ?_
      rcases List.mem_append.1 hd with hd | hd
      · exact isDigit_of_mem_replicate hd
      · exact hds d hd

/-- So is the form with an exponent. -/
theorem isNumeral_scientific {c : Char} {rest : List Char} (hc : c ≠ '0')
    (hds : ∀ d ∈ c :: rest, d.isDigit = true) (exponent : Int) :
    IsNumeral (Decimal.scientific (c :: rest) exponent) := by
  have hlead : Leads [c] .whole := leads_digits hc fun d hd => hds d (by
    rw [List.mem_singleton.1 hd]
    exact List.mem_cons_self)
  have hsign (i : Int) :
      (if i < 0 then '-' else '+') = '+' ∨ (if i < 0 then '-' else '+') = '-' := by
    split
    · exact .inr rfl
    · exact .inl rfl
  refine ⟨.exponent, ?_, .inr (.inr (.inr rfl))⟩
  unfold Decimal.scientific
  cases rest with
  | nil => exact hlead.exponent (.inl rfl) (hsign _) _
  | cons d rest =>
    have hfraction := hlead.point (.inr rfl) (List.cons_ne_nil d rest) fun d hd =>
      hds d (List.mem_cons_of_mem c hd)
    exact hfraction.exponent (.inr rfl) (hsign _) _

/-- Digits without the zeros at their end. -/
theorem dropZeros_cons {c : Char} (hc : c ≠ '0') (rest : List Char) :
    ∃ kept, ((c :: rest).reverse.dropWhile (· == '0')).reverse = c :: kept ∧ kept ⊆ rest := by
  have hkeep : [c].dropWhile (· == '0') = [c] := by
    rw [List.dropWhile_cons, if_neg (by simpa using hc)]
  rw [List.reverse_cons, List.dropWhile_append, hkeep]
  split
  · exact ⟨[], rfl, List.nil_subset _⟩
  · refine ⟨(rest.reverse.dropWhile (· == '0')).reverse, by simp, fun d hd => ?_⟩
    exact List.mem_reverse.1 (List.dropWhile_subset _ (List.mem_reverse.1 hd))

/-- A decimal is written as a numeral after its sign. -/
theorem exists_isNumeral_render (x : Binary64) : ∃ text, IsNumeral text ∧
    binaryLayout.render x = (if x.negative then ['-'] else []) ++ text := by
  have hnull : IsNumeral ['0', '.', '0'] :=
    ⟨_, leads_zero.point (.inl rfl) (List.cons_ne_nil _ _) isDigit_of_mem_zero,
      .inr (.inr (.inl rfl))⟩
  unfold Decimal.Layout.render
  dsimp only
  split
  · exact ⟨_, hnull, rfl⟩
  next hzero =>
    refine ⟨_, ?_, rfl⟩
    have hpos : x.magnitude ≠ 0 := by simpa [Binary64.isZero] using hzero
    rcases Decimal.shortest_cases hpos with hdigits | hnone
    · obtain ⟨c, rest, htext, hc⟩ := exists_toDigits_eq_cons hdigits
      obtain ⟨kept, hkept, hsubset⟩ := dropZeros_cons hc rest
      have hds : ∀ d ∈ c :: kept, d.isDigit = true := fun d hd =>
        isDigit_of_mem (htext ▸ List.cons_subset_cons c hsubset hd)
      rw [htext, hkept]
      split
      · exact isNumeral_positional hc hds _
      · exact isNumeral_scientific hc hds _
    · rw [hnone]
      exact hnull

/-! ### Values -/

/-- A number is written as a numeral, perhaps after a sign. -/
theorem Number.exists_isNumeral (n : Number) : ∃ (negative : Bool) (text : List Char),
    IsNumeral text ∧ n.render = (if negative then ['-'] else []) ++ text := by
  cases n with
  | whole i => exact ⟨decide (i < 0), _, isNumeral_toDigits i.natAbs, by simp [render, renderInt]⟩
  | binary x => exact ⟨x.negative, exists_isNumeral_render x⟩

/-- Whatever is written for a number is read as one. -/
theorem exists_reads_number (n : Number) : ∃ l, Reads n.render (.number l) := by
  obtain ⟨negative, text, htext, hn⟩ := n.exists_isNumeral
  rw [hn]
  exact htext.exists_reads negative

/-- A word is read character by character. -/
theorem readAll?_word (stack : List Container) (t : Tree) (w : Char) (rest cs : List Char) :
    (State.mk stack (.word (w :: rest) t)).readAll? (w :: rest ++ cs) =
      (completed stack t).bind fun s => s.readAll? cs := by
  induction rest generalizing w with
  | nil =>
    rw [State.readAll?, List.cons_append, List.foldlM_cons, State.read?]
    dsimp only
    rw [if_pos rfl]
    rfl
  | cons next rest ih =>
    have hread : (State.mk stack (.word (w :: next :: rest) t)).read? w =
        some ⟨stack, .word (next :: rest) t⟩ := by
      rw [State.read?]
      dsimp only
      rw [if_pos rfl]
      rfl
    rw [List.cons_append, readAll?_cons hread, ih]

/-- A word of which the first character stands for the rest is read as what it stands for. -/
theorem endsItself_word {t : Tree} {c w : Char} {rest : List Char}
    (hspace : isSpace c = false) (hend : c ≠ ']')
    (hbegun : ∀ stack, begun stack c = some ⟨stack, .word (w :: rest) t⟩) :
    EndsItself (c :: w :: rest) t where
  begins := ⟨c, _, rfl, hspace, hend⟩
  readAll stack cs := by
    have hread : (State.mk stack .value).read? c = some ⟨stack, .word (w :: rest) t⟩ := by
      rw [State.read?]
      dsimp only
      rw [hspace, hbegun]
      rfl
    rw [List.cons_append, readAll?_cons hread, readAll?_word]

mutual

/-- What a value is written as is read as a tree of the same weight. -/
theorem Value.exists_reads : (v : Value) → ∃ t, Reads v.render t ∧ t.weight = v.weight
  | .null => ⟨.null, (endsItself_word rfl (by decide) fun _ => rfl).reads, rfl⟩
  | .bool true => ⟨.bool true, (endsItself_word rfl (by decide) fun _ => rfl).reads, rfl⟩
  | .bool false => ⟨.bool false, (endsItself_word rfl (by decide) fun _ => rfl).reads, rfl⟩
  | .number n =>
    have ⟨l, hl⟩ := exists_reads_number n
    ⟨.number l, hl, rfl⟩
  | .string s =>
    have hlength : (pieces s.toList).length = s.toList.length := List.length_map _
    ⟨_, (endsItself_renderString s.toList).reads, congrArg Nat.succ hlength⟩
  | .array items =>
    have ⟨ts, hts, hweight⟩ := exists_reads_items items
    ⟨.array ts, (endsItself_renderItems hts).reads, congrArg Nat.succ hweight⟩
  | .object members =>
    have ⟨ns, hns, hweight⟩ := exists_reads_members members
    ⟨.object ns, (endsItself_renderMembers hns).reads, congrArg Nat.succ hweight⟩

/-- The texts of items are read as trees that weigh what the items do. -/
theorem exists_reads_items : (vs : List Value) →
    ∃ ts, List.Forall₂ Reads (renderAll vs) ts ∧ weightOfTrees ts = weightOfValues vs
  | [] => ⟨[], .nil, rfl⟩
  | v :: vs =>
    have ⟨t, ht, hfirst⟩ := v.exists_reads
    have ⟨ts, hts, hrest⟩ := exists_reads_items vs
    ⟨t :: ts, .cons ht hts, congrArg₂ Nat.add hfirst hrest⟩

/-- The texts of members are read as trees that weigh what the members do. -/
theorem exists_reads_members : (ms : List (String × Value)) →
    ∃ ns, List.Forall₂ ReadsMember (renderMemberValues ms) ns ∧
      weightOfTreeMembers ns = weightOfMembers ms
  | [] => ⟨[], .nil, rfl⟩
  | (k, v) :: ms =>
    have ⟨t, ht, hfirst⟩ := v.exists_reads
    have ⟨ns, hns, hrest⟩ := exists_reads_members ms
    have hkey : (pieces k.toList).length = k.toList.length := List.length_map _
    ⟨(pieces k.toList, t) :: ns, .cons ⟨rfl, ht⟩ hns,
      congrArg₂ Nat.add (congrArg₂ Nat.add hkey hfirst) hrest⟩

end

/-- Whether a value is an array or an object. -/
def Value.IsContainer : Value → Prop
  | .array _ | .object _ => True
  | _ => False

/-- What is written begins with no blank, and with a bracket only for arrays and objects. -/
theorem Value.exists_render_eq_cons (v : Value) : ∃ c rest, v.render = c :: rest ∧
    Text.isBlank c = false ∧ (v.IsContainer ∨ c ≠ '[' ∧ c ≠ '{') := by
  cases v with
  | null => exact ⟨_, _, rfl, rfl, .inr (by decide)⟩
  | bool b => cases b <;> exact ⟨_, _, rfl, rfl, .inr (by decide)⟩
  | string s => exact ⟨_, _, rfl, rfl, .inr (by decide)⟩
  | array items => exact ⟨_, _, rfl, rfl, .inl trivial⟩
  | object members => exact ⟨_, _, rfl, rfl, .inl trivial⟩
  | number n =>
    obtain ⟨negative, text, ⟨q, ⟨c, rest, rfl, hc, -⟩, -⟩, hn⟩ := n.exists_isNumeral
    rw [render, hn]
    cases negative with
    | true => exact ⟨_, _, rfl, rfl, .inr (by decide)⟩
    | false =>
      refine ⟨c, rest, rfl, ?_⟩
      have hmem := mem_of_isDigit hc
      fin_cases hmem <;> exact ⟨rfl, .inr (by decide)⟩

/-- An array or an object is written as a text that is read as a tree of the same weight. -/
theorem Value.IsContainer.exists_parse?_render {v : Value} (h : v.IsContainer) :
    ∃ t, Tree.parse? v.render = some t ∧ t.weight = v.weight := by
  cases v with
  | array items =>
    obtain ⟨ts, hts, hweight⟩ := exists_reads_items items
    exact ⟨_, (endsItself_renderItems hts).parse?, congrArg Nat.succ hweight⟩
  | object members =>
    obtain ⟨ns, hns, hweight⟩ := exists_reads_members members
    exact ⟨_, (endsItself_renderMembers hns).parse?, congrArg Nat.succ hweight⟩
  | _ => exact h.elim

end Json

end ChatRelay
