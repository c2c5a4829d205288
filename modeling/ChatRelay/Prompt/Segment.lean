/-!
# Segments

A prompt is text of two kinds: control text, in which the spellings of control tokens count, and
literal text, in which nothing does. A segment is a run of one kind. `merge` is the canonical form
of a list of segments: no empty segment, and neighbours of different kinds. It keeps every character
and its kind (`marks_merge`).
-/

namespace ChatRelay

/-- A run of prompt text of one kind. -/
structure Segment where
  /-- Whether the spellings of control tokens count. -/
  isControl : Bool
  text : String
deriving DecidableEq, Repr

namespace Segment

/-- Control text. -/
def control (text : String) : Segment := ⟨true, text⟩

/-- Literal text. -/
def literal (text : String) : Segment := ⟨false, text⟩

/-- Each character with its kind. -/
def marks (segments : List Segment) : List (Char × Bool) :=
  segments.flatMap fun s => s.text.toList.map (·, s.isControl)

/-- All text, kinds set aside. -/
def flatten (segments : List Segment) : String :=
  String.join (segments.map text)

/-- Puts a segment before merged ones. -/
def cons (s : Segment) (merged : List Segment) : List Segment :=
  if s.text = "" then merged
  else
    match merged with
    | t :: rest =>
      if s.isControl = t.isControl then ⟨s.isControl, s.text ++ t.text⟩ :: rest
      else s :: t :: rest
    | [] => [s]

/-- Joins neighbours of one kind and drops empty segments. -/
def merge (segments : List Segment) : List Segment :=
  segments.foldr cons []

/-! ### Laws -/

/-- Putting a segment first puts its characters first. -/
theorem marks_cons (s : Segment) (merged : List Segment) :
    marks (cons s merged) = s.text.toList.map (·, s.isControl) ++ marks merged := by
  unfold cons
  split
  · next h => simp [h]
  · split
    · split
      · next h => simp [marks, h]
      · simp [marks]
    · simp [marks]

/-- Merging keeps every character and its kind. -/
theorem marks_merge (segments : List Segment) : marks (merge segments) = marks segments := by
  induction segments with
  | nil => rfl
  | cons s rest ih =>
    rw [merge, List.foldr_cons, marks_cons, ← merge, ih]
    simp [marks]

end Segment

end ChatRelay
