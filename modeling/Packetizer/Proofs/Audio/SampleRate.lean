import Packetizer.Audio.SampleRate
import Packetizer.Proofs.Text.Numeral

/-!
# `Packetizer.Proofs.Audio.SampleRate`: rates as numbers and as text

The rates are ten numbers of hertz, and the table in which they are looked up
goes back from the number: it has each of them and nothing else
(`ofHz_eq_ok_iff`, `ofHz_eq_error_iff`). A text either is a numeral with white
space around it whose value fits a word, and is then looked up by that value,
or it is refused as no number (`parse_cases`). That decides every outcome of
`parse` by the grammar of numerals alone, since a text holds one numeral at
most.
-/

set_option autoImplicit false

namespace Packetizer.SampleRate

open Numeral (Padded)

/-! ### Rates as numbers -/

/-- The rates of the library, slow and fast. -/
theorem hz_bounds (rate : SampleRate) :
    8000 ≤ rate.hz.toNat ∧ rate.hz.toNat ≤ 192000 := by
  cases rate <;> decide

theorem hz_pos (rate : SampleRate) : 0 < rate.hz.toNat := by
  have hslow := rate.hz_bounds.1
  omega

/-- A look-up finds every rate by its value. -/
theorem ofHz_hz (rate : SampleRate) : ofHz rate.hz = .ok rate := by
  cases rate <;> rfl

/-- Each row of the table has the value of its rate. -/
theorem hz_of_ofHz {value : UInt64} {rate : SampleRate} (h : ofHz value = .ok rate) :
    rate.hz = value := by
  unfold ofHz at h
  split at h <;> cases h <;> rfl

theorem ofHz_eq_ok_iff {value : UInt64} {rate : SampleRate} :
    ofHz value = .ok rate ↔ rate.hz = value := by
  constructor
  · exact hz_of_ofHz
  · rintro rfl
    exact ofHz_hz rate

/-- A look-up that fails names the value. -/
theorem error_of_ofHz {value : UInt64} {e : RateError} (h : ofHz value = .error e) :
    e = .unsupported value := by
  unfold ofHz at h
  split at h <;> cases h
  rfl

theorem ofHz_eq_error_iff {value : UInt64} {e : RateError} :
    ofHz value = .error e ↔ e = .unsupported value ∧ ∀ rate : SampleRate, rate.hz ≠ value := by
  constructor
  · intro h
    refine ⟨error_of_ofHz h, ?_⟩
    rintro rate rfl
    rw [ofHz_hz] at h
    cases h
  · rintro ⟨rfl, hnone⟩
    cases hlook : ofHz value with
    | ok rate => exact absurd (hz_of_ofHz hlook) (hnone rate)
    | error e => rw [error_of_ofHz hlook]

/-- Every rate is the one of its hertz. -/
theorem ofHz_toNat (rate : SampleRate) : ofHz (UInt64.ofNat rate.hz.toNat) = .ok rate := by
  rw [ofHz_eq_ok_iff, UInt64.ofNat_toNat]

/-! ### Rates as text -/

/-- A numeral whose value fits a word is looked up, and any other text is
refused. -/
theorem parse_cases (text : String) :
    (∃ value : UInt64, Padded text.toList value.toNat ∧ parse text = ofHz value) ∨
      ((∀ n, Padded text.toList n → UInt64.size ≤ n) ∧ parse text = .error .notANumber) := by
  have hlimit : 0 < UInt64.size := by decide
  unfold parse
  split
  · next n hread =>
    obtain ⟨hdenotes, hbelow⟩ := (Numeral.ofChars_eq_ok_iff hlimit).1 hread
    refine .inl ⟨UInt64.ofNat n, ?_, rfl⟩
    rw [UInt64.toNat_ofNat_of_lt' hbelow]
    exact Numeral.denotes_trim_iff.1 hdenotes
  · next e hread =>
    refine .inr ⟨?_, rfl⟩
    intro n hn
    refine Nat.le_of_not_lt fun hbelow => ?_
    -- A numeral that fits would have been read.
    have hok := (Numeral.ofChars_eq_ok_iff hlimit).2 ⟨Numeral.denotes_trim_iff.2 hn, hbelow⟩
    rw [hread] at hok
    cases hok

/-- A text is the numeral of the value that it is looked up by, and of no
other. -/
theorem padded_iff_of_padded {text : String} {value : UInt64} (h : Padded text.toList value.toNat)
    (w : UInt64) : Padded text.toList w.toNat ↔ value = w := by
  constructor
  · intro hw
    exact UInt64.toNat_inj.1 (h.unique hw)
  · rintro rfl
    exact h

/-- No word is the value of a numeral that is too large for one. -/
theorem not_padded_of_large {text : String} (h : ∀ n, Padded text.toList n → UInt64.size ≤ n)
    (w : UInt64) : ¬ Padded text.toList w.toNat := fun hw =>
  absurd w.toNat_lt (Nat.not_lt.2 (h _ hw))

theorem parse_eq_ok_iff {text : String} {rate : SampleRate} :
    parse text = .ok rate ↔ Padded text.toList rate.hz.toNat := by
  rcases parse_cases text with ⟨value, hvalue, hparse⟩ | ⟨hlarge, hparse⟩
  · rw [hparse, ofHz_eq_ok_iff, padded_iff_of_padded hvalue]
    exact eq_comm
  · rw [hparse]
    exact iff_of_false nofun (not_padded_of_large hlarge _)

theorem parse_eq_unsupported_iff {text : String} {w : UInt64} :
    parse text = .error (.unsupported w) ↔
      Padded text.toList w.toNat ∧ ∀ rate : SampleRate, rate.hz ≠ w := by
  rcases parse_cases text with ⟨value, hvalue, hparse⟩ | ⟨hlarge, hparse⟩
  · rw [hparse, ofHz_eq_error_iff, padded_iff_of_padded hvalue]
    constructor
    · rintro ⟨hw, hnone⟩
      cases hw
      exact ⟨rfl, hnone⟩
    · rintro ⟨rfl, hnone⟩
      exact ⟨rfl, hnone⟩
  · rw [hparse]
    exact iff_of_false nofun fun h => not_padded_of_large hlarge _ h.1

theorem parse_eq_notANumber_iff {text : String} :
    parse text = .error .notANumber ↔ ∀ n, Padded text.toList n → UInt64.size ≤ n := by
  rcases parse_cases text with ⟨value, hvalue, hparse⟩ | ⟨hlarge, hparse⟩
  · rw [hparse, ofHz_eq_error_iff]
    refine iff_of_false nofun fun h => ?_
    exact not_padded_of_large h value hvalue
  · exact iff_of_true hparse hlarge

/-- The text of a rate spells its hertz. -/
theorem spells_text (rate : SampleRate) : Numeral.Spells rate.text.toList rate.hz.toNat := by
  rw [text, Nat.toString_eq_ofList_toDigits, String.toList_ofList]
  exact Numeral.spells_toDigits _

/-- A text is read as a rate exactly when it is a numeral of the hertz of that
rate with any white space around it. It is refused with a value exactly when
it is such a numeral of that value and no rate has the value, and as no number
when it is no such numeral, or one whose value is too large for a word, however
long it is. The text of a rate is read as that rate between any white space,
and also after a sign and any zeros. -/
theorem parsed_as_numeral :
    (∀ text : String,
      (∀ rate, parse text = .ok rate ↔ Padded text.toList rate.hz.toNat) ∧
      (∀ w : UInt64, parse text = .error (.unsupported w) ↔
        Padded text.toList w.toNat ∧ ∀ rate : SampleRate, rate.hz ≠ w) ∧
      (parse text = .error .notANumber ↔ ∀ n, Padded text.toList n → UInt64.size ≤ n) ∧
      ∀ n, Padded text.toList n → UInt64.size ≤ n → parse text = .error .notANumber) ∧
    ∀ (rate : SampleRate) (before behind : String), (∀ c ∈ before.toList, Text.isBlank c) →
      (∀ c ∈ behind.toList, Text.isBlank c) →
      parse (before ++ rate.text ++ behind) = .ok rate ∧
      ∀ zeros : Nat, parse (before ++
        ("+" ++ String.ofList (List.replicate zeros '0') ++ rate.text) ++ behind) = .ok rate := by
  constructor
  · intro text
    refine ⟨fun _ => parse_eq_ok_iff, fun _ => parse_eq_unsupported_iff,
      parse_eq_notANumber_iff, ?_⟩
    intro n hn hlarge
    rw [parse_eq_notANumber_iff]
    intro m hm
    rwa [hm.unique hn]
  · intro rate before behind hbefore hbehind
    constructor
    · rw [parse_eq_ok_iff, String.toList_append, String.toList_append]
      exact (Numeral.Denotes.plain rate.spells_text).padded hbefore hbehind
    · intro zeros
      rw [parse_eq_ok_iff, String.toList_append, String.toList_append]
      refine Numeral.Denotes.padded ?_ hbefore hbehind
      simp only [String.toList_append, String.toList_ofList, List.append_assoc]
      exact .signed (rate.spells_text.zeros zeros)

/-- The value of a rate with two to the sixty-fourth added is no number that
is read, and the value alone may have white space, a sign and zeros with it. -/
theorem parsed_as_numeral_wrapping :
    Padded "18446744073709599616".toList (UInt64.size + 48000) ∧
      UInt64.size ≤ UInt64.size + 48000 ∧
      parse "18446744073709599616" = .error .notANumber ∧
      (∀ c ∈ "\u3000\t".toList, Text.isBlank c) ∧ (∀ c ∈ "\n".toList, Text.isBlank c) ∧
      parse ("\u3000\t" ++ hz48000.text ++ "\n") = .ok hz48000 ∧
      parse "\u3000\t+00048000\n" = .ok hz48000 := by
  have hspells : Numeral.Spells "18446744073709599616".toList (UInt64.size + 48000) :=
    ⟨by decide, List.all_eq_true.1 (by decide), by decide⟩
  have hpadded : Padded "18446744073709599616".toList (UInt64.size + 48000) :=
    ⟨[], _, [], (List.append_nil _).symm,
      Text.framed_of_solid (List.forall_mem_nil _) (Numeral.Denotes.plain hspells).not_isBlank
        (List.forall_mem_nil _), .plain hspells⟩
  have hlarge : UInt64.size ≤ UInt64.size + 48000 := Nat.le_add_right _ _
  have hbefore : ∀ c ∈ "\u3000\t".toList, Text.isBlank c :=
    List.all_eq_true.1 (by decide)
  have hbehind : ∀ c ∈ "\n".toList, Text.isBlank c := List.all_eq_true.1 (by decide)
  obtain ⟨hplain, hzeros⟩ := parsed_as_numeral.2 hz48000 "\u3000\t" "\n" hbefore hbehind
  exact ⟨hpadded, hlarge, (parsed_as_numeral.1 _).2.2.2 _ hpadded hlarge, hbefore, hbehind,
    hplain, hzeros 3⟩

end Packetizer.SampleRate
