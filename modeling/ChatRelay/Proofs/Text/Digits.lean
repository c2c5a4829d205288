import ChatRelay.Text.Integer
import Mathlib

/-!
# Decimal digits

A natural number is written in digits and nothing else, at least one (`digits_isDigit`,
`digits_ne_nil`), the first of which is a zero only if it is the only one
(`digits_head_ne_zero`). Digits are read from the left, and reading them only makes the value larger
(`le_ofDigitChars`); so a reader with a limit refuses just the numbers beyond it
(`digitsUpTo_eq`, `parse_of_isDigit`, `parse_text`).
-/

namespace ChatRelay.Integer

theorem digits_isDigit {n : Nat} {c : Char} (h : c ∈ digits n) : c.isDigit = true :=
  Nat.isDigit_of_mem_toDigits (by decide) (by decide) h

theorem digits_ne_nil (n : Nat) : digits n ≠ [] := Nat.toDigits_ne_nil

@[simp] theorem ofDigitChars_digits (n : Nat) : Nat.ofDigitChars 10 (digits n) 0 = n :=
  Nat.ofDigitChars_ten_toDigits

/-- A number of more than one digit does not start with a zero. -/
theorem digits_head_ne_zero (n : Nat) : ∀ d e ds, digits n = d :: e :: ds → d ≠ '0' := by
  induction n using Nat.strong_induction_on with
  | _ n ih =>
    intro d e ds h
    have hten : 10 ≤ n := by
      by_contra hlt
      rw [digits, Nat.toDigits_of_lt_base (by omega)] at h
      simp at h
    rw [digits, Nat.toDigits_of_base_le (by decide) hten] at h
    cases hq : Nat.toDigits 10 (n / 10) with
    | nil => exact absurd hq Nat.toDigits_ne_nil
    | cons q qs =>
      obtain rfl : q = d := by simpa [hq] using (List.cons.inj (hq ▸ h)).1
      cases qs with
      | cons r rs => exact ih (n / 10) (by omega) q r rs hq
      | nil =>
        -- The first digit is all of a quotient that is not zero.
        rintro rfl
        have hzero : n / 10 = 0 := by
          have := Nat.ofDigitChars_ten_toDigits (n := n / 10)
          rw [hq] at this
          simpa [Nat.ofDigitChars] using this.symm
        omega

/-- More digits make no number smaller. -/
theorem le_ofDigitChars (ds : List Char) (value : Nat) : value ≤ Nat.ofDigitChars 10 ds value := by
  rw [Nat.ofDigitChars_eq_ofDigitChars_zero]
  exact Nat.le_trans (Nat.le_mul_of_pos_left _ (Nat.pow_pos (by decide))) (Nat.le_add_right _ _)

/-- Digits are read up to the limit, and refused beyond it. -/
theorem digitsUpTo_eq (limit : Nat) (beyond : IntegerError) {ds : List Char} {value : Nat}
    (hds : ∀ d ∈ ds, d.isDigit = true) (h : value ≤ limit) :
    digitsUpTo limit beyond value ds =
      if Nat.ofDigitChars 10 ds value ≤ limit then .ok (Nat.ofDigitChars 10 ds value)
      else .error beyond := by
  induction ds generalizing value with
  | nil => exact (if_pos h).symm
  | cons d ds ih =>
    obtain ⟨hd, hrest⟩ := List.forall_mem_cons.1 hds
    have hnext : value * 10 + (d.toNat - '0'.toNat) = 10 * value + (d.toNat - '0'.toNat) := by
      rw [Nat.mul_comm]
    rw [digitsUpTo, if_pos hd, hnext, Nat.ofDigitChars_cons]
    by_cases hle : 10 * value + (d.toNat - '0'.toNat) ≤ limit
    · simp only [hle, if_true]
      exact ih hrest hle
    · have hbeyond := le_ofDigitChars ds (10 * value + (d.toNat - '0'.toNat))
      simp only [hle, if_false]
      rw [if_neg (by omega)]

/-- Digits are read as their value if it is not above the upper bound. -/
theorem parse_of_isDigit (low : Int) {high : Int} (hhigh : 0 ≤ high) {ds : List Char}
    (hne : ds ≠ []) (hds : ∀ d ∈ ds, d.isDigit = true) :
    parse low high ds = if (Nat.ofDigitChars 10 ds 0 : Int) ≤ high
      then .ok (Nat.ofDigitChars 10 ds 0 : Int) else .error .tooLarge := by
  have hread := digitsUpTo_eq high.toNat .tooLarge hds (Nat.zero_le _)
  have hbound : ∀ n : Nat, n ≤ high.toNat ↔ (n : Int) ≤ high := by omega
  obtain ⟨c, cs, rfl⟩ := List.exists_cons_of_ne_nil hne
  have hc : c.isDigit = true := hds c (List.mem_cons_self ..)
  have hplus : c ≠ '+' := by rintro rfl; exact absurd hc (by decide)
  have hminus : c ≠ '-' := by rintro rfl; exact absurd hc (by decide)
  rw [parse.eq_def]
  split
  · next heq => cases heq
  · next heq => exact absurd (List.cons.inj heq).1 hplus
  · next heq => exact absurd (List.cons.inj heq).1 hminus
  · next heq => exact absurd (List.cons.inj heq).1 hplus
  · next heq =>
    obtain ⟨rfl, rfl⟩ := List.cons.inj heq
    rw [if_neg (fun h => hminus h.1), hread]
    simp only [hbound]
    split <;> rfl

/-- Digits after a minus are read if their value is not below the lower bound. -/
theorem parse_minus_of_isDigit {low : Int} (hlow : low < 0) (high : Int) {ds : List Char}
    (hne : ds ≠ []) (hds : ∀ d ∈ ds, d.isDigit = true) :
    parse low high ('-' :: ds) = if low ≤ -(Nat.ofDigitChars 10 ds 0 : Int)
      then .ok (-(Nat.ofDigitChars 10 ds 0 : Int)) else .error .tooSmall := by
  have hread := digitsUpTo_eq low.natAbs .tooSmall hds (Nat.zero_le _)
  have hbound : ∀ n : Nat, n ≤ low.natAbs ↔ low ≤ -(n : Int) := by omega
  obtain ⟨c, cs, rfl⟩ := List.exists_cons_of_ne_nil hne
  rw [parse, if_pos ⟨rfl, hlow⟩, hread]
  · simp only [hbound]
    split <;> rfl
  all_goals simp

/-- A written integer is read if it is within the bounds. -/
theorem parse_text {low high : Int} (hlow : low < 0) (hhigh : 0 ≤ high) (n : Int) :
    parse low high (text n) =
      if low ≤ n ∧ n ≤ high then .ok n
      else .error (if n < 0 then .tooSmall else .tooLarge) := by
  by_cases hneg : n < 0
  · have habs : -(n.natAbs : Int) = n := by omega
    have hbounds : (low ≤ n ∧ n ≤ high) ↔ low ≤ n := by omega
    rw [text, if_pos hneg, parse_minus_of_isDigit hlow high (digits_ne_nil _)
      fun _ => digits_isDigit, ofDigitChars_digits, habs, if_pos hneg]
    simp only [hbounds]
  · have habs : (n.natAbs : Int) = n := by omega
    have hbounds : (low ≤ n ∧ n ≤ high) ↔ n ≤ high := by omega
    rw [text, if_neg hneg, parse_of_isDigit low hhigh (digits_ne_nil _)
      fun _ => digits_isDigit, ofDigitChars_digits, habs, if_neg hneg]
    simp only [hbounds]

/-- A written integer starts with a minus or a digit. -/
theorem exists_text_eq_cons (n : Int) :
    ∃ c cs, text n = c :: cs ∧ (c = '-' ∨ c.isDigit = true) := by
  by_cases hneg : n < 0
  · exact ⟨'-', _, if_pos hneg, .inl rfl⟩
  · obtain ⟨c, cs, hcs⟩ := List.exists_cons_of_ne_nil (digits_ne_nil n.natAbs)
    exact ⟨c, cs, (if_neg hneg).trans hcs, .inr (digits_isDigit (hcs ▸ List.mem_cons_self ..))⟩

end ChatRelay.Integer
