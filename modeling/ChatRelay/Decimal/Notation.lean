import ChatRelay.Decimal.Shortest
import ChatRelay.Text.Integer

/-!
# Decimal notation

How the shortest digits are laid out. A `Style` is the format's decisions: from which size on the
notation is scientific, and down to which size it is positional. Positional notation always shows a
digit after the point; scientific notation shows a point only before further digits, and always the
sign of the exponent.
-/

namespace ChatRelay

/-- Where positional notation begins and ends, as powers of ten: it is used for `10 ^ least ≤ |x|`
and `|x| < 10 ^ bound`. -/
structure Decimal.Style where
  least : Int
  bound : Int

namespace Decimal

/-- Positional notation from a hundred-thousandth up to ten thousand million million. -/
def style : Style := ⟨-5, 16⟩

/-- The digits without the zeros at their end, and how many zeros there were. -/
def stripZeros : List Char → List Char × Nat
  | [] => ([], 0)
  | c :: cs =>
    match stripZeros cs with
    | ([], n) => if c = '0' then ([], n + 1) else ([c], n)
    | (ds, n) => (c :: ds, n)

/-- Lays out digits of which `point` stand before the decimal point. -/
def Style.layout (s : Style) (ds : List Char) (point : Int) : List Char :=
  if s.least < point ∧ point ≤ s.bound then
    if point ≤ 0 then
      ['0', '.'] ++ List.replicate point.natAbs '0' ++ ds
    else
      let n := point.toNat
      if ds.length ≤ n then ds ++ List.replicate (n - ds.length) '0' ++ ['.', '0']
      else ds.take n ++ '.' :: ds.drop n
  else
    let e := point - 1
    let mark := 'e' :: (if e < 0 then '-' else '+') :: Integer.digits e.natAbs
    match ds with
    | [] => mark
    | [d] => d :: mark
    | d :: rest => d :: '.' :: rest ++ mark

/-- The text of a finite number. -/
def write (x : Binary64) : List Char :=
  let body :=
    if x.isZero then ['0', '.', '0']
    else
      let d := x.shortest
      let (ds, zeros) := stripZeros (Integer.digits d.digits)
      style.layout ds (ds.length + zeros + d.exponent)
  if x.negative then '-' :: body else body

end Decimal

end ChatRelay
