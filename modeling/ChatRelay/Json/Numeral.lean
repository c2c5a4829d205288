import ChatRelay.Json.Basic

/-!
# Numerals

A numeral as it is written, and the number it stands for. Without fraction and exponent it is an
integer if it fits 64 bits, where minus zero is the float. Everything else is a float, read in two
steps: the leading digits that fit an unsigned 64-bit word are the significand, and the power of ten
that is left is applied to it in binary64 arithmetic, one rounding for the word and one for each
multiplication or division. Digits of the whole part beyond the word count as zeros, those of the
fraction are dropped.
-/

namespace ChatRelay.Json

/-- A numeral in its parts; digits are kept as written. -/
structure Numeral where
  negative : Bool
  whole : List Char
  /-- The digits after a point, if there is one. -/
  fraction : Option (List Char)
  /-- The sign (`true` for minus) and digits of an exponent, if there is one. -/
  exponent : Option (Bool × List Char)
deriving DecidableEq, Repr

namespace Numeral

/-- The largest unsigned 64-bit word. -/
def wordLimit : Nat := 0xFFFFFFFFFFFFFFFF

/-- Takes digits into the word as long as it holds them, and returns the digits left over. -/
def absorb : Nat → List Char → Nat × List Char
  | word, [] => (word, [])
  | word, d :: ds =>
    let next := word * 10 + (d.toNat - '0'.toNat)
    if next ≤ wordLimit then absorb next ds else (word, d :: ds)

/-- The number read by a run of digits. -/
def digitsValue (ds : List Char) : Nat :=
  Nat.ofDigitChars 10 ds 0

/-- The exponent that the numeral states. -/
def statedExponent (n : Numeral) : Int :=
  match n.exponent with
  | none => 0
  | some (minus, ds) => if minus then -(digitsValue ds : Int) else digitsValue ds

/-- The significand that fits a word and the power of ten that goes with it. -/
def scaled (n : Numeral) : Nat × Int :=
  let (w, dropped) := absorb 0 n.whole
  let fraction := n.fraction.getD []
  -- A digit of the fraction may still fit where one of the whole part did not.
  let (word, unused) := absorb w fraction
  (word, dropped.length - (fraction.length - unused.length) + n.statedExponent)

/-- Divides by a power of ten in steps that binary64 can hold. A word divided twice by the largest
such power is zero, so a third step is never needed. -/
def divideByPow10? (x : Binary64) (k : Nat) : Option Binary64 := do
  if k ≤ 308 then
    x.div? (← Binary64.ofNat? (Binary64.pow10 k))
  else if k ≤ 616 then
    let y ← x.div? (← Binary64.ofNat? (Binary64.pow10 308))
    y.div? (← Binary64.ofNat? (Binary64.pow10 (k - 308 : Nat)))
  else some (Binary64.zero false)

/-- A word times a power of ten; nothing if that is out of range. -/
def float? (word : Nat) (exponent : Int) : Option Binary64 := do
  let x ← Binary64.ofNat? word
  if word = 0 then some x
  else if 0 ≤ exponent then
    if exponent ≤ 308 then x.mul? (← Binary64.ofNat? (Binary64.pow10 exponent)) else none
  else divideByPow10? x exponent.natAbs

/-- The integer that the numeral states, if it is one that is kept exactly. -/
def integer? (n : Numeral) : Option Number :=
  if n.fraction.isSome ∨ n.exponent.isSome then none
  else
    match absorb 0 n.whole with
    | (word, []) =>
      if n.negative ∧ word = 0 then none
      else
        let signed : Int := if n.negative then -word else word
        if h : InRange signed then some (.int signed h) else none
    | _ => none

/-- The number that the numeral stands for; nothing if it is out of range. -/
def number? (n : Numeral) : Option Number :=
  match n.integer? with
  | some i => some i
  | none =>
    let (word, exponent) := n.scaled
    (float? word exponent).map fun x => .float (if n.negative then x.neg else x)

end Numeral

end ChatRelay.Json
