/-!
# Markers in running text

Text in which a region is opened by one marker and closed by another. `stretches` cuts a text at its
markers: outside a region at the leftmost opening marker, inside at the leftmost closing one, and so
on in turn. A text that is still growing may end in the middle of a marker, so `splitHeld` sets
aside its longest end with which a marker could start.
-/

namespace ChatRelay

/-- The markers around a region. -/
structure Markers where
  opening : List Char
  closing : List Char
deriving DecidableEq, Repr

namespace Markers

/-- The marker that ends a stretch inside or outside a region. -/
def next (m : Markers) (inside : Bool) : List Char :=
  if inside then m.closing else m.opening

/-- The stretches between the markers of a text, after skipping characters of the last marker. The
first component is the stretch at the start of the text; each of the others comes after a marker. -/
def stretchesAfter (m : Markers) : Nat → Bool → List Char → List Char × List (List Char)
  | _, _, [] => ([], [])
  | skip + 1, inside, _ :: cs => stretchesAfter m skip inside cs
  | 0, inside, c :: cs =>
    if (m.next inside).isPrefixOf (c :: cs) then
      let (s, others) := stretchesAfter m ((m.next inside).length - 1) (!inside) cs
      ([], s :: others)
    else
      let (s, others) := stretchesAfter m 0 inside cs
      (c :: s, others)

/-- The stretches between the markers of a text that starts inside or outside a region. -/
def stretches (m : Markers) (inside : Bool) (cs : List Char) : List Char × List (List Char) :=
  stretchesAfter m 0 inside cs

/-- A text without its longest end that is a proper start of the marker, and that end. -/
def splitHeld (marker : List Char) : List Char → List Char × List Char
  | [] => ([], [])
  | c :: cs =>
    if (c :: cs).isPrefixOf marker && decide ((c :: cs).length < marker.length) then ([], c :: cs)
    else
      let (settled, held) := splitHeld marker cs
      (c :: settled, held)

/-! ### Laws -/

/-- Setting an end aside loses nothing. -/
theorem splitHeld_append (marker cs : List Char) :
    (splitHeld marker cs).1 ++ (splitHeld marker cs).2 = cs := by
  induction cs with
  | nil => rfl
  | cons c cs ih =>
    rw [splitHeld]
    split
    · rfl
    · simpa using ih

/-- What is set aside is a start of the marker. -/
theorem splitHeld_isPrefix (marker cs : List Char) : (splitHeld marker cs).2 <+: marker := by
  induction cs with
  | nil => exact List.nil_prefix
  | cons c cs ih =>
    rw [splitHeld]
    split
    · next h =>
      rw [Bool.and_eq_true] at h
      exact List.isPrefixOf_iff_prefix.1 h.1
    · exact ih

end Markers

end ChatRelay
