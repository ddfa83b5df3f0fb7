import Packetizer.Proofs.Text.Blank
import Packetizer.Text.Numeral

/-!
# `Packetizer.Proofs.Text.Numeral`: the numerals that are read

A numeral is one decimal digit or more after at most one plus sign, and its
value is that of the digits (`Denotes`). Reading below a limit gives the value
of exactly the numerals whose value is below it (`ofChars_eq_ok_iff`). The
induction is on the digits still to be read. What carries it is that the value
never shrinks (`le_ofDigitChars`): some step reaches the limit exactly when the
whole numeral does, so that nothing wraps around, however many digits follow.

Numerals hold no white space. Trimming a text therefore gives a numeral exactly
when the text is one with white space around it (`denotes_trim_iff`).
-/

set_option autoImplicit false

namespace Packetizer.Numeral

/-! ### The grammar -/

/-- One decimal digit or more, the highest first, and their value. Zeros in
front are digits like any others. -/
structure Spells (ds : List Char) (n : Nat) : Prop where
  nonempty : ds ≠ []
  digits : ∀ c ∈ ds, c.isDigit
  value : Nat.ofDigitChars 10 ds 0 = n

/-- A numeral and its value: digits, or digits after one plus sign. -/
inductive Denotes : List Char → Nat → Prop where
  | plain {ds : List Char} {n : Nat} (digits : Spells ds n) : Denotes ds n
  | signed {ds : List Char} {n : Nat} (digits : Spells ds n) : Denotes ('+' :: ds) n

/-- A numeral with any white space around it, and its value. -/
def Padded (cs : List Char) (n : Nat) : Prop :=
  ∃ before numeral behind,
    cs = before ++ numeral ++ behind ∧ Text.Framed before numeral behind ∧ Denotes numeral n

/-- The decimal digits of a number have that number as their value. -/
theorem spells_toDigits (n : Nat) : Spells (Nat.toDigits 10 n) n where
  nonempty := Nat.toDigits_ne_nil
  digits := fun _ hc => Nat.isDigit_of_mem_toDigits (by decide) (by decide) hc
  value := Nat.ofDigitChars_ten_toDigits

/-- Zeros in front leave the value as it is. -/
theorem Spells.zeros {ds : List Char} {n : Nat} (h : Spells ds n) (k : Nat) :
    Spells (List.replicate k '0' ++ ds) n where
  nonempty := List.append_ne_nil_of_right_ne_nil _ h.nonempty
  digits := by
    intro c hc
    rcases List.mem_append.1 hc with hzero | hdigit
    · rw [List.eq_of_mem_replicate hzero]
      decide
    · exact h.digits c hdigit
  value := by
    rw [Nat.ofDigitChars_append, Nat.ofDigitChars_replicate_zero, Nat.mul_zero]
    exact h.value

/-- The sign does not stand for a digit. -/
theorem Spells.head_ne {ds : List Char} {n : Nat} (h : Spells ds n) (rest : List Char) :
    ds ≠ '+' :: rest := by
  rintro rfl
  have hdigit := h.digits '+' List.mem_cons_self
  revert hdigit
  decide

/-! ### Reading digits -/

/-- The characters that are read as digits are the ten decimal ones. -/
theorem isDigit_iff {c : Char} : c.isDigit ↔ '0' ≤ c ∧ c ≤ '9' := by
  simp only [Char.isDigit, Bool.and_eq_true, decide_eq_true_eq]
  rfl

theorem digit?_of_isDigit {c : Char} (h : c.isDigit) : digit? c = some (c.toNat - '0'.toNat) :=
  if_pos (isDigit_iff.1 h)

theorem digit?_of_not_isDigit {c : Char} (h : ¬ c.isDigit) : digit? c = none :=
  if_neg (mt isDigit_iff.2 h)

/-- A digit is appended if the value with it stays below the limit. -/
theorem digits_cons_of_isDigit {limit value : Nat} {c : Char} (rest : List Char) (h : c.isDigit) :
    digits limit value (c :: rest)
      = if 10 * value + (c.toNat - '0'.toNat) < limit then
          digits limit (10 * value + (c.toNat - '0'.toNat)) rest
        else .error .tooLarge := by
  rw [digits, digit?_of_isDigit h, Nat.mul_comm value 10]

/-- No other character is read on. -/
theorem digits_cons_of_not_isDigit {limit value : Nat} {c : Char} (rest : List Char)
    (h : ¬ c.isDigit) : digits limit value (c :: rest) = .error .invalidDigit := by
  rw [digits, digit?_of_not_isDigit h]

/-- The value only grows with what is read onto it. -/
theorem le_ofDigitChars (value : Nat) (cs : List Char) : value ≤ Nat.ofDigitChars 10 cs value := by
  induction cs generalizing value with
  | nil => exact Nat.le_refl value
  | cons c rest ih =>
    rw [Nat.ofDigitChars_cons]
    have hrest := ih (10 * value + (c.toNat - '0'.toNat))
    omega

/-- Reading digits onto a value gives the value of both together, exactly when
all are digits and that value is below the limit. -/
theorem digits_eq_ok_iff {limit value n : Nat} {cs : List Char} (hbelow : value < limit) :
    digits limit value cs = .ok n ↔
      (∀ c ∈ cs, c.isDigit) ∧ Nat.ofDigitChars 10 cs value = n ∧ n < limit := by
  induction cs generalizing value with
  | nil =>
    constructor
    · intro h
      cases h
      exact ⟨List.forall_mem_nil _, rfl, hbelow⟩
    · rintro ⟨-, rfl, -⟩
      rfl
  | cons c rest ih =>
    by_cases hdigit : c.isDigit
    · rw [digits_cons_of_isDigit rest hdigit, Nat.ofDigitChars_cons, List.forall_mem_cons]
      by_cases hroom : 10 * value + (c.toNat - '0'.toNat) < limit
      · rw [if_pos hroom, ih hroom]
        exact ⟨fun ⟨hall, hvalue⟩ => ⟨⟨hdigit, hall⟩, hvalue⟩,
          fun ⟨⟨_, hall⟩, hvalue⟩ => ⟨hall, hvalue⟩⟩
      · rw [if_neg hroom]
        constructor
        · intro h
          cases h
        · -- What reaches the limit stays there, whatever digits follow.
          rintro ⟨-, rfl, hlimit⟩
          have hgrows := le_ofDigitChars (10 * value + (c.toNat - '0'.toNat)) rest
          omega
    · rw [digits_cons_of_not_isDigit rest hdigit, List.forall_mem_cons]
      constructor
      · intro h
        cases h
      · rintro ⟨⟨hc, -⟩, -⟩
        exact absurd hc hdigit

/-! ### Reading numerals -/

/-- Digits without a sign are read from the first on. -/
theorem ofChars_of_ne_sign {limit : Nat} {ds : List Char} (hne : ds ≠ [])
    (hsign : ∀ rest, ds ≠ '+' :: rest) : ofChars limit ds = digits limit 0 ds := by
  unfold ofChars
  split
  · exact absurd rfl hne
  · exact absurd rfl (hsign [])
  · exact absurd rfl (hsign _)
  · rfl

/-- Digits behind a sign are read from the second character on. -/
theorem ofChars_signed {limit : Nat} {ds : List Char} (hne : ds ≠ []) :
    ofChars limit ('+' :: ds) = digits limit 0 ds := by
  cases ds with
  | nil => exact absurd rfl hne
  | cons c rest => rfl

/-- The digits that are read are those that spell a value below the limit. -/
theorem digits_eq_ok_iff_spells {limit n : Nat} {ds : List Char} (hlimit : 0 < limit)
    (hne : ds ≠ []) : digits limit 0 ds = .ok n ↔ Spells ds n ∧ n < limit := by
  rw [digits_eq_ok_iff hlimit]
  constructor
  · rintro ⟨hall, hvalue, hbelow⟩
    exact ⟨⟨hne, hall, hvalue⟩, hbelow⟩
  · rintro ⟨h, hbelow⟩
    exact ⟨h.digits, h.value, hbelow⟩

/-- What is read are the numerals with a value below the limit, and it is
their value. -/
theorem ofChars_eq_ok_iff {limit n : Nat} {cs : List Char} (hlimit : 0 < limit) :
    ofChars limit cs = .ok n ↔ Denotes cs n ∧ n < limit := by
  constructor
  · intro h
    unfold ofChars at h
    split at h
    · cases h
    · cases h
    · next rest hne =>
      obtain ⟨hspells, hbelow⟩ := (digits_eq_ok_iff_spells hlimit hne).1 h
      exact ⟨.signed hspells, hbelow⟩
    · next hne _ _ =>
      obtain ⟨hspells, hbelow⟩ := (digits_eq_ok_iff_spells hlimit hne).1 h
      exact ⟨.plain hspells, hbelow⟩
  · rintro ⟨h, hbelow⟩
    cases h with
    | plain hspells =>
      rw [ofChars_of_ne_sign hspells.nonempty hspells.head_ne]
      exact (digits_eq_ok_iff_spells hlimit hspells.nonempty).2 ⟨hspells, hbelow⟩
    | signed hspells =>
      rw [ofChars_signed hspells.nonempty]
      exact (digits_eq_ok_iff_spells hlimit hspells.nonempty).2 ⟨hspells, hbelow⟩

/-- The text of a number below the limit is read as that number. -/
theorem read_toString {limit n : Nat} (h : n < limit) : read limit (toString n) = .ok n := by
  rw [read, Nat.toString_eq_ofList_toDigits, String.toList_ofList]
  exact (ofChars_eq_ok_iff (Nat.zero_lt_of_lt h)).2 ⟨.plain (spells_toDigits n), h⟩

/-- A numeral has one value: both are read off it. -/
theorem Denotes.unique {cs : List Char} {m n : Nat} (hm : Denotes cs m) (hn : Denotes cs n) :
    m = n := by
  have hlimit : 0 < m + n + 1 := by omega
  have hleft : ofChars (m + n + 1) cs = .ok m := (ofChars_eq_ok_iff hlimit).2 ⟨hm, by omega⟩
  have hright : ofChars (m + n + 1) cs = .ok n := (ofChars_eq_ok_iff hlimit).2 ⟨hn, by omega⟩
  rw [hleft] at hright
  exact Except.ok.inj hright

/-! ### Numerals between white space -/

/-- No digit is white space. -/
theorem not_isBlank_of_isDigit {c : Char} (h : c.isDigit) : ¬ Text.isBlank c := by
  -- No code point of white space is among those of the digits.
  have haway : ∀ n ∈ Text.blanks, n < '0'.toNat ∨ '9'.toNat < n := by decide
  intro hblank
  have hoff := haway c.toNat (List.contains_iff_mem.1 hblank)
  have hdigit := Char.isDigit_iff_toNat.1 h
  omega

/-- There is no white space inside of a numeral. -/
theorem Denotes.not_isBlank {cs : List Char} {n : Nat} (h : Denotes cs n) :
    ∀ c ∈ cs, ¬ Text.isBlank c := by
  cases h with
  | plain hspells =>
    intro c hc
    exact not_isBlank_of_isDigit (hspells.digits c hc)
  | signed hspells =>
    intro c hc
    rcases List.mem_cons.1 hc with rfl | hc
    · decide
    · exact not_isBlank_of_isDigit (hspells.digits c hc)

/-- A numeral may stand between any white space. -/
theorem Denotes.padded {before cs behind : List Char} {n : Nat} (h : Denotes cs n)
    (hbefore : ∀ c ∈ before, Text.isBlank c) (hbehind : ∀ c ∈ behind, Text.isBlank c) :
    Padded (before ++ cs ++ behind) n :=
  ⟨before, cs, behind, rfl, Text.framed_of_solid hbefore h.not_isBlank hbehind, h⟩

/-- What trimming leaves is the numeral that stands between the white space. -/
theorem denotes_trim_iff {cs : List Char} {n : Nat} : Denotes (Text.trim cs) n ↔ Padded cs n := by
  constructor
  · intro h
    obtain ⟨before, behind, heq, hframed⟩ := Text.trim_eq_iff.1 (Eq.refl (Text.trim cs))
    exact ⟨before, Text.trim cs, behind, heq, hframed, h⟩
  · rintro ⟨before, numeral, behind, heq, hframed, h⟩
    rwa [Text.trim_eq_iff.2 ⟨before, behind, heq, hframed⟩]

/-- A text holds one numeral at most. -/
theorem Padded.unique {cs : List Char} {m n : Nat} (hm : Padded cs m) (hn : Padded cs n) : m = n :=
  (denotes_trim_iff.2 hm).unique (denotes_trim_iff.2 hn)

end Packetizer.Numeral
