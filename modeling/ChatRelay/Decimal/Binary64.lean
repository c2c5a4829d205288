/-!
# Finite binary64 numbers

A finite double-precision number is a sign and `significand · 2 ^ exponent`, where the significand
has exactly 53 bits unless the exponent is the least one. That form is unique, so equality of the
structure is equality of the numbers, signed zeros kept apart.

`ofRatio?` is the one rounding: to the nearest number, a tie to the even significand, and `none`
where the result would be infinite. Multiplication and division are exact arithmetic followed by it,
so no machine arithmetic is involved.
-/

namespace ChatRelay

/-- The least significand of 53 bits. -/
def Binary64.leastFull : Nat := 0x10000000000000

/-- The least significand of 54 bits, which is one bit too many. -/
def Binary64.leastOver : Nat := 0x20000000000000

/-- The form of a finite number: 53 bits, or fewer at the least exponent. -/
def Binary64.Canonical (significand : Nat) (exponent : Int) : Prop :=
  significand < Binary64.leastOver ∧ -1074 ≤ exponent ∧ exponent ≤ 971 ∧
    (Binary64.leastFull ≤ significand ∨ exponent = -1074)

instance (m : Nat) (e : Int) : Decidable (Binary64.Canonical m e) := by
  unfold Binary64.Canonical; infer_instance

/-- A finite double-precision number. -/
structure Binary64 where
  negative : Bool
  significand : Nat
  exponent : Int
  canonical : Binary64.Canonical significand exponent
deriving DecidableEq

namespace Binary64

/-- The zero of a sign. -/
def zero (negative : Bool) : Binary64 :=
  ⟨negative, 0, -1074, by decide⟩

/-- The number of that form, unless it is out of range. -/
def ofParts? (negative : Bool) (significand : Nat) (exponent : Int) : Option Binary64 :=
  if h : Canonical significand exponent then some ⟨negative, significand, exponent, h⟩ else none

/-- The quotient of naturals, rounded to the nearest natural, a tie to the even one. -/
def roundDiv (num den : Nat) : Nat :=
  let q := num / den
  let r := num % den
  if 2 * r < den then q
  else if den < 2 * r then q + 1
  else if q % 2 = 0 then q else q + 1

/-- Multiplies by a power of two that is not negative; for another, the exponent counts as zero. -/
def shiftUp (n : Nat) (e : Int) : Nat :=
  n <<< e.toNat

/-- A power of ten that is not a fraction; for a negative exponent it is one. -/
def pow10 (t : Int) : Nat :=
  Nat.pow 10 t.toNat

/-- The exponent at which the quotient has 53 bits, but at least the least exponent. -/
def exponentFor (num den : Nat) : Int :=
  let e : Int := max ((num.log2 : Int) - den.log2 - 53) (-1074)
  if shiftUp num (-e) / shiftUp den e < leastOver then e else e + 1

/-- The number nearest to `num / den`, for a positive `den`. -/
def ofRatio? (negative : Bool) (num den : Nat) : Option Binary64 :=
  if num = 0 then some (zero negative)
  else
    let e := exponentFor num den
    let m := roundDiv (shiftUp num (-e)) (shiftUp den e)
    -- Rounding up may carry into a 54th bit; then all bits but the first are zero.
    if m = leastOver then ofParts? negative leastFull (e + 1) else ofParts? negative m e

/-- The number nearest to a natural. -/
def ofNat? (n : Nat) : Option Binary64 :=
  ofRatio? false n 1

/-- The product, rounded. -/
def mul? (x y : Binary64) : Option Binary64 :=
  let e := x.exponent + y.exponent
  ofRatio? (x.negative != y.negative) (shiftUp (x.significand * y.significand) e) (shiftUp 1 (-e))

/-- The quotient by a number other than zero, rounded. -/
def div? (x y : Binary64) : Option Binary64 :=
  let e := x.exponent - y.exponent
  ofRatio? (x.negative != y.negative) (shiftUp x.significand e) (shiftUp y.significand (-e))

/-- The number with the other sign. -/
def neg (x : Binary64) : Binary64 :=
  { x with negative := !x.negative }

/-- Whether the number is a zero. -/
def isZero (x : Binary64) : Bool :=
  x.significand == 0

end Binary64

end ChatRelay
