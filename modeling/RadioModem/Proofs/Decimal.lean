import Mathlib.Data.List.TakeWhile
import Mathlib.Tactic.IntervalCases
import RadioModem.Command.Parser

/-!
# Numbers in front of a text

A number is read off the longest run of digits that a text begins with, and is refused only if the
run's value is too large. A printed number is such a run.
-/
namespace RadioModem

namespace Text.Decimal

lemma le_ofDigitChars (n : Nat) (digits : List Char) : n ≤ Nat.ofDigitChars 10 digits n := by
  rw [Nat.ofDigitChars_eq_ofDigitChars_zero]
  have hpow : 1 ≤ 10 ^ digits.length := Nat.one_le_pow _ _ (by omega)
  have hscaled : 1 * n ≤ 10 ^ digits.length * n := Nat.mul_le_mul_right n hpow
  omega

/-- The reader gives up in the middle of a run, but only on a run that is too large as a whole. -/
theorem continued_eq {limit n : Nat} (hn : n < limit) (text : List Char) :
    continued limit n text =
      if Nat.ofDigitChars 10 (text.takeWhile Char.isDigit) n < limit then
        some (Nat.ofDigitChars 10 (text.takeWhile Char.isDigit) n, text.dropWhile Char.isDigit)
      else none := by
  induction text generalizing n with
  | nil => simp [continued, hn]
  | cons c text ih =>
    cases hc : c.isDigit with
    | false => simp [continued, hc, hn]
    | true =>
      simp only [continued, hc, if_true, List.takeWhile_cons, List.dropWhile_cons,
        Nat.ofDigitChars_cons]
      split
      · next hnext => exact ih hnext
      · next hlarge =>
        have hgrows := le_ofDigitChars (10 * n + weight c) (text.takeWhile Char.isDigit)
        exact (if_neg fun hsmall => hlarge (Nat.lt_of_le_of_lt hgrows hsmall)).symm

end Text.Decimal

/-- The digits in front of `rest` are a run that goes on for as long as it can, and their value is
a number that can be read. -/
structure Numeral (run rest : List Char) (n : Nat) : Prop where
  digits : ∀ c ∈ run, c.isDigit = true
  maximal : ∀ c ∈ rest.head?, c.isDigit = false
  value : Nat.ofDigitChars 10 run 0 = n
  small : n < numberLimit

lemma number_eq (text : List Char) :
    number text =
      if Nat.ofDigitChars 10 (text.takeWhile Char.isDigit) 0 < numberLimit then
        .ok (Nat.ofDigitChars 10 (text.takeWhile Char.isDigit) 0, text.dropWhile Char.isDigit)
      else .error .malformed := by
  rw [number, Text.Decimal.leading, Text.Decimal.continued_eq (by decide)]
  by_cases hsmall : Nat.ofDigitChars 10 (text.takeWhile Char.isDigit) 0 < numberLimit
  · rw [if_pos hsmall, if_pos hsmall]
  · rw [if_neg hsmall, if_neg hsmall]

section
variable {run rest text : List Char} {n d : Nat}

lemma Numeral.number_eq (h : Numeral run rest n) : number (run ++ rest) = .ok (n, rest) := by
  have hrest : rest.takeWhile Char.isDigit = [] ∧ rest.dropWhile Char.isDigit = rest := by
    cases rest with
    | nil => simp
    | cons c rest =>
      have hc : c.isDigit = false := h.maximal c rfl
      simp [hc]
  rw [RadioModem.number_eq, List.takeWhile_append_of_pos h.digits,
    List.dropWhile_append_of_pos h.digits, hrest.1, hrest.2, List.append_nil, h.value,
    if_pos h.small]

/-- Digits that make a number too large are refused, whatever stands behind them. -/
lemma number_large (hdigits : ∀ c ∈ run, c.isDigit = true)
    (hlarge : numberLimit ≤ Nat.ofDigitChars 10 run 0) (rest : List Char) :
    number (run ++ rest) = .error .malformed := by
  rw [RadioModem.number_eq, List.takeWhile_append_of_pos hdigits, Nat.ofDigitChars_append, if_neg]
  have hgrows := Text.Decimal.le_ofDigitChars (Nat.ofDigitChars 10 run 0)
    (rest.takeWhile Char.isDigit)
  omega

/-- Reading a number ends with a numeral, or is refused for what stands in front. -/
theorem number_cases (text : List Char) :
    (∃ run rest n, text = run ++ rest ∧ Numeral run rest n ∧ number text = .ok (n, rest)) ∨
      number text = .error .malformed := by
  rw [number_eq]
  split
  · next hsmall =>
    refine .inl ⟨text.takeWhile Char.isDigit, text.dropWhile Char.isDigit, _,
      List.takeWhile_append_dropWhile.symm, ?_, rfl⟩
    refine ⟨fun c hc => List.mem_takeWhile_imp hc, fun c hc => ?_, rfl, hsmall⟩
    have hstop := List.head?_dropWhile_not Char.isDigit text
    rw [Option.mem_def] at hc
    rw [hc] at hstop
    exact hstop
  · exact .inr rfl

/-! ### Printed numbers -/

lemma isDigit_of_mem_toDigits {c : Char} (h : c ∈ Nat.toDigits 10 n) : c.isDigit = true :=
  Nat.isDigit_of_mem_toDigits (by omega) (by omega) h

/-- A printed number is read back at the end of a text and in front of all but a digit. -/
lemma numeral_toDigits (hn : n < numberLimit) (hrest : ∀ c ∈ rest.head?, c.isDigit = false) :
    Numeral (Nat.toDigits 10 n) rest n :=
  ⟨fun _ => isDigit_of_mem_toDigits, hrest, Nat.ofDigitChars_ten_toDigits, hn⟩

lemma numeral_end (hn : n < numberLimit) : Numeral (Nat.toDigits 10 n) [] n :=
  numeral_toDigits hn (by simp)

lemma numeral_before {c : Char} (rest : List Char) (hn : n < numberLimit)
    (hc : c.isDigit = false) : Numeral (Nat.toDigits 10 n) (c :: rest) n :=
  numeral_toDigits hn (by simpa using hc)

/-- A text that writes a number: one digit or more, with any zeros in front. -/
structure Spells (text : String) (n : Nat) : Prop where
  nonempty : text ≠ ""
  digits : ∀ c ∈ text.toList, c.isDigit = true
  value : Nat.ofDigitChars 10 text.toList 0 = n

lemma spells_padded (zeros n : Nat) :
    Spells (String.ofList (List.replicate zeros '0') ++ toString n) n := by
  have hchars : (String.ofList (List.replicate zeros '0') ++ toString n).toList =
      List.replicate zeros '0' ++ Nat.toDigits 10 n := by simp
  refine ⟨fun hempty => ?_, fun c hc => ?_, ?_⟩
  · have hnone : Nat.toDigits 10 n = [] := by
      rw [hempty] at hchars
      exact (List.append_eq_nil_iff.mp hchars.symm).2
    exact Nat.toDigits_ne_nil hnone
  · rw [hchars] at hc
    rcases List.mem_append.mp hc with hc | hc
    · rw [List.eq_of_mem_replicate hc]
      rfl
    · exact isDigit_of_mem_toDigits hc
  · rw [hchars, Nat.ofDigitChars_append, Nat.ofDigitChars_replicate_zero, Nat.mul_zero,
      Nat.ofDigitChars_ten_toDigits]

lemma spells_toString (n : Nat) : Spells (toString n) n := by
  simpa using spells_padded 0 n

/-- Nothing but a number that is small enough is read as a whole. -/
lemma Text.Decimal.whole_eq_some_iff {limit : Nat} (hlimit : 0 < limit) {text : List Char} :
    whole limit text = some n ↔ Spells (String.ofList text) n ∧ n < limit := by
  rw [whole, leading, continued_eq hlimit]
  constructor
  · intro h
    split at h
    · next k hread =>
      split at hread
      · next hsmall =>
        obtain ⟨rfl, hrest⟩ := Prod.mk.inj (Option.some.inj hread)
        have hdigits := List.dropWhile_eq_nil_iff.mp hrest
        rw [List.takeWhile_eq_self_iff.mpr hdigits] at h hsmall
        obtain ⟨hne, rfl⟩ : text ≠ [] ∧ Nat.ofDigitChars 10 text 0 = n := by simpa using h
        exact ⟨⟨by simpa using hne, by simpa using hdigits, by simp⟩, hsmall⟩
      · cases hread
    · cases h
  · rintro ⟨⟨hne, hdigits, hvalue⟩, hsmall⟩
    rw [String.toList_ofList] at hdigits hvalue
    have hsome : text ≠ [] := by simpa using hne
    simp [List.takeWhile_eq_self_iff.mpr hdigits, List.dropWhile_eq_nil_iff.mpr hdigits, hvalue,
      hsmall, hsome]

/-- A text that writes a number with one plus sign in front of the digits, or none. -/
def SpellsSigned (text : String) (n : Nat) : Prop :=
  ∃ digits, Spells digits n ∧ (text = digits ∨ text = "+" ++ digits)

lemma Text.Decimal.withoutPlus_digits (h : ∀ c ∈ text, c.isDigit = true) :
    withoutPlus text = text := by
  unfold withoutPlus
  split
  · next rest =>
    have hsign := h '+' (by simp)
    cases hsign
  · rfl

/-- A word is read off the texts that write it, and off no other. -/
lemma Text.Decimal.word16_eq_some_iff {a : UInt16} :
    word16 text = some a ↔ SpellsSigned (String.ofList text) a.toNat := by
  rw [word16, Option.map_eq_some_iff]
  constructor
  · rintro ⟨n, hwhole, rfl⟩
    obtain ⟨hspells, hsmall⟩ := (whole_eq_some_iff (by decide)).mp hwhole
    rw [UInt16.toNat_ofNat_of_lt' hsmall]
    refine ⟨_, hspells, ?_⟩
    unfold withoutPlus
    split
    · exact .inr String.ofList_cons
    · exact .inl rfl
  · rintro ⟨digits, hspells, htext⟩
    have hplain : withoutPlus text = digits.toList := by
      rcases htext with heq | heq
      · have hplain := congrArg String.toList heq
        rw [String.toList_ofList] at hplain
        rw [hplain]
        exact withoutPlus_digits hspells.digits
      · have hsigned := congrArg String.toList heq
        rw [String.toList_ofList, String.toList_append] at hsigned
        rw [hsigned]
        rfl
    have hwhole : whole 65536 (withoutPlus text) = some a.toNat := by
      rw [whole_eq_some_iff (by decide), hplain, String.ofList_toList]
      exact ⟨hspells, a.toNat_lt⟩
    exact ⟨a.toNat, hwhole, UInt16.ofNat_toNat⟩

/-! ### Single digits -/

lemma isDigit_iff {c : Char} : c.isDigit = true ↔ 48 ≤ c.toNat ∧ c.toNat ≤ 57 := by
  rw [Char.isDigit, Bool.and_eq_true, decide_eq_true_iff, decide_eq_true_iff]
  rfl

lemma digit_digitChar (h : d < 10) : digit (Nat.digitChar d) = .ok d := by
  interval_cases d <;> rfl

lemma digit_cases (c : Char) :
    (∃ d, d < 10 ∧ c = Nat.digitChar d ∧ digit c = .ok d) ∨ digit c = .error .malformed := by
  unfold digit
  split
  · next hc =>
    obtain ⟨hlow, hhigh⟩ := isDigit_iff.mp hc
    refine .inl ⟨c.toNat - 48, by omega, ?_, rfl⟩
    apply Char.toNat_inj.mp
    rw [Nat.toNat_digitChar_of_lt_ten (by omega)]
    omega
  · exact .inr rfl

end

end RadioModem
