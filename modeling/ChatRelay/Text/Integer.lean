/-!
# Decimal integers within bounds

Reading an integer that has to fit between two bounds. A leading plus is allowed, a leading minus
only if the lower bound is negative. The digits are read from the left, and the first thing wrong is
the error: a character that is no digit, or the digit at which the value leaves the bounds.
-/

namespace ChatRelay

/-- Why a text is not an integer within the bounds. -/
inductive IntegerError where
  | empty
  | invalidDigit
  | tooLarge
  | tooSmall
deriving DecidableEq, Repr

/-- The words for an integer error. -/
def IntegerError.message : IntegerError → String
  | .empty => "cannot parse integer from empty string"
  | .invalidDigit => "invalid digit found in string"
  | .tooLarge => "number too large to fit in target type"
  | .tooSmall => "number too small to fit in target type"

namespace Integer

/-- Reads digits on top of the value so far, as long as it stays at or below the limit. -/
def digitsUpTo (limit : Nat) (beyond : IntegerError) : Nat → List Char → Except IntegerError Nat
  | value, [] => .ok value
  | value, c :: cs =>
    if c.isDigit then
      let next := value * 10 + (c.toNat - '0'.toNat)
      -- What follows the digit that leaves the bounds is not looked at.
      if next ≤ limit then digitsUpTo limit beyond next cs else .error beyond
    else .error .invalidDigit

/-- Reads an integer between `low` and `high`, where `low ≤ 0 ≤ high`. -/
def parse (low high : Int) : List Char → Except IntegerError Int
  | [] => .error .empty
  | ['+'] => .error .invalidDigit
  | ['-'] => .error .invalidDigit
  | '+' :: cs => (digitsUpTo high.toNat .tooLarge 0 cs).map Int.ofNat
  | c :: cs =>
    if c = '-' ∧ low < 0 then
      (digitsUpTo low.natAbs .tooSmall 0 cs).map fun n => -(n : Int)
    else (digitsUpTo high.toNat .tooLarge 0 (c :: cs)).map Int.ofNat

/-- The digits of a natural number. -/
def digits (n : Nat) : List Char :=
  Nat.toDigits 10 n

/-- An integer in digits, with a minus if it is negative. -/
def text (n : Int) : List Char :=
  if n < 0 then '-' :: digits n.natAbs else digits n.natAbs

end Integer

end ChatRelay
