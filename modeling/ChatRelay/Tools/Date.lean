/-!
# Calendar dates

A date is written as four digits, two and two with hyphens between them, and has to exist in the
Gregorian calendar, carried back over all years from 0000 on.
-/

namespace ChatRelay.Date

/-- Whether a year has a 29th of February. -/
def isLeap (year : Nat) : Bool :=
  (year % 4 == 0 && year % 100 != 0) || year % 400 == 0

/-- The number of days of a month; none if there is no such month. -/
def daysIn (year month : Nat) : Nat :=
  match month with
  | 2 => if isLeap year then 29 else 28
  | 4 | 6 | 9 | 11 => 30
  | 1 | 3 | 5 | 7 | 8 | 10 | 12 => 31
  | _ => 0

/-- Whether the day exists. -/
def exists? (year month day : Nat) : Bool :=
  1 ≤ day && day ≤ daysIn year month

/-- Whether a text is a date. -/
def isDate : List Char → Bool
  | [y₁, y₂, y₃, y₄, '-', m₁, m₂, '-', d₁, d₂] =>
    [y₁, y₂, y₃, y₄, m₁, m₂, d₁, d₂].all Char.isDigit
      && exists? (Nat.ofDigitChars 10 [y₁, y₂, y₃, y₄] 0) (Nat.ofDigitChars 10 [m₁, m₂] 0)
        (Nat.ofDigitChars 10 [d₁, d₂] 0)
  | _ => false

end ChatRelay.Date
