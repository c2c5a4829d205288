import ChatRelay.Decimal.Binary64

/-!
# The fewest digits that read back

A binary64 number is written with the fewest decimal digits that name it and no other. The reals
that round to the number form an interval, its ends included just when the significand is even.
`shortest` looks at the decimal grids from coarse to fine, each a tenth of the one before, and takes
the first one with a point in that interval. If a grid has such a point then one of the value's two
neighbours on it is one, so only those two are tried; of two the nearer wins, and a tie goes to the
even one.

All quantities are counted in quarters of the number's last place, which makes the ends of the
interval whole numbers.
-/

namespace ChatRelay

/-- A decimal `digits · 10 ^ exponent`. -/
structure Decimal where
  digits : Nat
  exponent : Int
deriving DecidableEq, Repr

namespace Binary64

/-- A positive value and the interval of reals that round to it, in quarters of a unit
`2 ^ exponent`. -/
structure Rounding where
  low : Nat
  value : Nat
  high : Nat
  /-- The exponent of a quarter. -/
  exponent : Int
  /-- Whether the ends belong to the interval. -/
  closed : Bool

/-- The interval of a number other than zero. Below a power of two the spacing halves. -/
def rounding (x : Binary64) : Rounding :=
  let m := x.significand
  { low := if m = leastFull ∧ x.exponent ≠ -1074 then 4 * m - 1 else 4 * m - 2
    value := 4 * m
    high := 4 * m + 2
    exponent := x.exponent - 2
    closed := m % 2 = 0 }

/-- The best point of the grid of multiples of `10 ^ t` that lies in the interval, if one does.
Powers with a negative exponent count as one, and the other side carries them instead. -/
def Rounding.gridPoint? (r : Rounding) (t : Int) : Option Nat :=
  -- The value is `scale r.value / unit` steps of the grid.
  let scale (quarters : Nat) : Nat := shiftUp quarters r.exponent * pow10 (-t)
  let unit : Nat := shiftUp (pow10 t) (-r.exponent)
  let below := scale r.value / unit
  let above := below + 1
  let takesLow := if r.closed then scale r.low ≤ below * unit else scale r.low < below * unit
  let takesHigh := if r.closed then above * unit ≤ scale r.high else above * unit < scale r.high
  let toLow := scale r.value - below * unit
  let toHigh := above * unit - scale r.value
  if takesLow ∧ (¬ takesHigh ∨ toLow < toHigh ∨ (toLow = toHigh ∧ below % 2 = 0)) then
    some below
  else if takesHigh then some above
  else none

/-- The first grid with a point in the interval, from `10 ^ t` down. -/
def Rounding.firstPoint (r : Rounding) (t : Int) : Nat → Decimal
  | 0 => ⟨(r.gridPoint? t).getD 0, t⟩
  | finer + 1 =>
    match r.gridPoint? t with
    | some n => ⟨n, t⟩
    | none => r.firstPoint (t - 1) finer

/-- The number of decimal digits before the point, or at most one more: `10 ^ magnitude` exceeds the
value. -/
def Rounding.magnitude (r : Rounding) : Int :=
  let bits : Int := (r.value.log2 : Int) + 1 + r.exponent
  if 0 ≤ bits then bits * 30103 / 100000 + 1 else -(-bits * 30102 / 100000) + 1

/-- The fewest digits that read back as the size of the number. Three grids are to spare for the
estimate of the magnitude, and seventeen digits always suffice. -/
def shortest (x : Binary64) : Decimal :=
  if x.isZero then ⟨0, 0⟩ else x.rounding.firstPoint x.rounding.magnitude 20

end Binary64

end ChatRelay
