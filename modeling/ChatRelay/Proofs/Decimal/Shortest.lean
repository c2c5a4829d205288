import ChatRelay.Decimal.Shortest
import Mathlib.Algebra.Ring.Nat

/-!
# The shortest digits are digits of a number

The search for the fewest digits ends with a point of a decimal grid that is not zero, for every
number other than zero: zero is never in the interval of such a number (`gridPoint?_ne_zero`), and
the finest of the grids that are tried has a point in it (`isSome_gridPoint?`). So the digits that
are laid out are those of a positive number (`digits_shortest_ne_zero`).
-/

namespace ChatRelay.Binary64

/-! ### Powers -/

/-- Three decimal digits take less than ten binary ones. -/
theorem ten_pow_le {a c : Nat} (h : 10 * a ≤ 3 * c) : 10 ^ a ≤ 2 ^ c := by
  have hcubes : (10 ^ a) ^ 3 ≤ (2 ^ c) ^ 3 := calc
    (10 ^ a) ^ 3 = (10 ^ 3) ^ a := Nat.pow_right_comm ..
    _ ≤ (2 ^ 10) ^ a := Nat.pow_le_pow_left (by decide) a
    _ = 2 ^ (10 * a) := (Nat.pow_mul ..).symm
    _ ≤ 2 ^ (3 * c) := Nat.pow_le_pow_right (by decide) h
    _ = (2 ^ c) ^ 3 := by rw [Nat.mul_comm, Nat.pow_mul]
  exact (Nat.pow_le_pow_iff_left (by decide)).1 hcubes

/-- Twenty-eight decimal digits take more than ninety-three binary ones. -/
theorem two_pow_le {b d : Nat} (h : 28 * b ≤ 93 * d) : 2 ^ b ≤ 10 ^ d := by
  have hpowers : (2 ^ b) ^ 28 ≤ (10 ^ d) ^ 28 := calc
    (2 ^ b) ^ 28 = 2 ^ (28 * b) := by rw [Nat.mul_comm, Nat.pow_mul]
    _ ≤ 2 ^ (93 * d) := Nat.pow_le_pow_right (by decide) h
    _ = (2 ^ 93) ^ d := Nat.pow_mul ..
    _ ≤ (10 ^ 28) ^ d := Nat.pow_le_pow_left (by decide) d
    _ = (10 ^ d) ^ 28 := Nat.pow_right_comm ..
  exact (Nat.pow_le_pow_iff_left (by decide)).1 hpowers

theorem shiftUp_add (a b : Nat) (e : Int) : shiftUp (a + b) e = shiftUp a e + shiftUp b e := by
  simp only [shiftUp, Nat.shiftLeft_eq, Nat.add_mul]

theorem shiftUp_pos {n : Nat} (h : 0 < n) (e : Int) : 0 < shiftUp n e := by
  rw [shiftUp, Nat.shiftLeft_eq]
  exact Nat.mul_pos h (Nat.two_pow_pos _)

theorem pow10_pos (t : Int) : 0 < pow10 t := Nat.pow_pos (by decide)

namespace Rounding

variable {r : Rounding} {t : Int}

/-! ### One grid -/

/-- So many quarters, on a scale on which they and the steps of a grid are whole. -/
def scale (r : Rounding) (t : Int) (quarters : Nat) : Nat :=
  shiftUp quarters r.exponent * pow10 (-t)

/-- The step of a grid on that scale. -/
def unit (r : Rounding) (t : Int) : Nat :=
  shiftUp (pow10 t) (-r.exponent)

theorem scale_pos {quarters : Nat} (h : 0 < quarters) : 0 < r.scale t quarters :=
  Nat.mul_pos (shiftUp_pos h _) (pow10_pos _)

/-- The last point of a grid that is not above the value. -/
def below (r : Rounding) (t : Int) : Nat :=
  r.scale t r.value / r.unit t

/-- What the search for a point of a grid can come to. -/
theorem gridPoint?_cases (r : Rounding) (t : Int) :
    (r.gridPoint? t = some (r.below t) ∧ r.scale t r.low ≤ r.below t * r.unit t) ∨
      r.gridPoint? t = some (r.below t + 1) ∨
      (r.gridPoint? t = none ∧ r.scale t r.high ≤ (r.below t + 1) * r.unit t) := by
  unfold gridPoint? below scale unit
  dsimp only
  cases r.closed with
  | true =>
    simp only [if_true]
    split
    · next htakes => exact .inl ⟨rfl, htakes.1⟩
    split
    · exact .inr (.inl rfl)
    · next hhigh => exact .inr (.inr ⟨rfl, by omega⟩)
  | false =>
    simp only [Bool.false_eq_true, if_false]
    split
    · next htakes => exact .inl ⟨rfl, Nat.le_of_lt htakes.1⟩
    split
    · exact .inr (.inl rfl)
    · next hhigh => exact .inr (.inr ⟨rfl, by omega⟩)

/-- Zero is not in the interval of a number other than zero. -/
theorem gridPoint?_ne_zero (hlow : 0 < r.low) {n : Nat} (h : r.gridPoint? t = some n) :
    n ≠ 0 := by
  rcases r.gridPoint?_cases t with ⟨hpoint, hlower⟩ | hpoint | ⟨hpoint, -⟩
  · obtain rfl : r.below t = n := Option.some.inj (hpoint.symm.trans h)
    intro hzero
    have hscale : 0 < r.scale t r.low := scale_pos hlow
    rw [hzero, Nat.zero_mul] at hlower
    omega
  · obtain rfl : r.below t + 1 = n := Option.some.inj (hpoint.symm.trans h)
    omega
  · rw [hpoint] at h
    cases h

/-- A grid whose step is shorter than the way from the value to the upper end has a point in the
interval. -/
theorem isSome_gridPoint? (h : r.scale t r.value + r.unit t < r.scale t r.high) :
    (r.gridPoint? t).isSome = true := by
  rcases r.gridPoint?_cases t with ⟨hpoint, -⟩ | hpoint | ⟨-, hupper⟩
  · rw [hpoint]
    rfl
  · rw [hpoint]
    rfl
  · have hbelow : r.below t * r.unit t ≤ r.scale t r.value := Nat.div_mul_le_self _ _
    rw [Nat.succ_mul] at hupper
    omega

/-- The first point of several grids is not zero, if the finest of them has a point. -/
theorem digits_firstPoint_ne_zero (hlow : 0 < r.low) {finer : Nat}
    (h : (r.gridPoint? (t - finer)).isSome = true) : (r.firstPoint t finer).digits ≠ 0 := by
  induction finer generalizing t with
  | zero =>
    rw [Int.natCast_zero, Int.sub_zero] at h
    obtain ⟨n, hn⟩ := Option.isSome_iff_exists.1 h
    rw [firstPoint, hn]
    exact gridPoint?_ne_zero hlow hn
  | succ finer ih =>
    rw [firstPoint]
    split
    · next n hn => exact gridPoint?_ne_zero hlow hn
    · refine ih ?_
      have hfinest : t - 1 - finer = t - (finer + 1 : Nat) := by omega
      rwa [hfinest]

/-! ### The finest grid -/

/-- Twenty grids below the magnitude, a step is shorter than two quarters. -/
theorem unit_lt_scale (hvalue : r.value < 2 ^ 55) (hleast : -1076 ≤ r.exponent)
    (hmost : r.exponent ≤ 969) : r.unit (r.magnitude - 20) < r.scale (r.magnitude - 20) 2 := by
  have hbits : r.value.log2 ≤ 54 := by
    by_cases hzero : r.value = 0
    · rw [hzero]
      decide
    · have := (Nat.log2_lt hzero).2 hvalue
      omega
  -- What is to the one side of the point in decimal is to the same side in binary, and longer there
  -- above the point, shorter below it.
  have hsides : 10 * (r.magnitude - 20).toNat ≤ 3 * r.exponent.toNat ∧
      28 * (-r.exponent).toNat ≤ 93 * (-(r.magnitude - 20)).toNat := by
    unfold magnitude
    dsimp only
    split <;> omega
  have habove := ten_pow_le hsides.1
  have hbelow := two_pow_le hsides.2
  have hpos : 0 < 2 ^ r.exponent.toNat * 10 ^ (-(r.magnitude - 20)).toNat :=
    Nat.mul_pos (Nat.two_pow_pos _) (Nat.pow_pos (by decide))
  rw [unit, scale, shiftUp, shiftUp, Nat.shiftLeft_eq, Nat.shiftLeft_eq, Nat.mul_assoc]
  have hle := Nat.mul_le_mul habove hbelow
  exact Nat.lt_of_le_of_lt hle (by rw [Nat.two_mul]; exact Nat.lt_add_of_pos_left hpos)

/-- The finest of the grids that are tried has a point in the interval. -/
theorem isSome_gridPoint?_finest (hvalue : r.value < 2 ^ 55) (hhigh : r.high = r.value + 2)
    (hleast : -1076 ≤ r.exponent) (hmost : r.exponent ≤ 969) :
    (r.gridPoint? (r.magnitude - 20)).isSome = true := by
  have hunit := unit_lt_scale hvalue hleast hmost
  have hadd : r.scale (r.magnitude - 20) r.high =
      r.scale (r.magnitude - 20) r.value + r.scale (r.magnitude - 20) 2 := by
    rw [hhigh, scale, shiftUp_add, Nat.add_mul]
    rfl
  refine isSome_gridPoint? ?_
  omega

end Rounding

/-- The digits of a number other than zero are not zero. -/
theorem digits_shortest_ne_zero {x : Binary64} (h : x.isZero = false) : x.shortest.digits ≠ 0 := by
  have hpos : 0 < x.significand := Nat.pos_of_ne_zero (beq_eq_false_iff_ne.1 h)
  obtain ⟨hsignificand, hleast, hmost, -⟩ := x.canonical
  rw [leastOver] at hsignificand
  have hlow : 0 < x.rounding.low := by
    rw [rounding]
    dsimp only
    split <;> omega
  have hvalue : x.rounding.value < 2 ^ 55 := by
    show 4 * x.significand < 2 ^ 55
    omega
  have hfirst : -1076 ≤ x.rounding.exponent ∧ x.rounding.exponent ≤ 969 := by
    show -1076 ≤ x.exponent - 2 ∧ x.exponent - 2 ≤ 969
    omega
  rw [shortest, if_neg (by rw [h]; exact Bool.false_ne_true)]
  exact Rounding.digits_firstPoint_ne_zero hlow
    (Rounding.isSome_gridPoint?_finest hvalue rfl hfirst.1 hfirst.2)

end ChatRelay.Binary64
