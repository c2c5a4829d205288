import ChatRelay.Chat.Event
import Mathlib

/-!
# Joining text

The text of a reply reaches the client in pieces, and where one piece ends has no meaning.
`joinText` joins neighbouring pieces, so that two lists of events which differ in that only become
equal. Joining may be done part by part (`joinText_append_congr`), and cutting a text in two changes
nothing (`joinText_ofText_append`).
-/

namespace ChatRelay.StreamEvent

/-- Whether an event is a piece of text. -/
def isText (e : StreamEvent) : Bool := !e.special && !e.tool && !e.error

/-- Puts an event before joined ones. -/
def joinCons (e : StreamEvent) : List StreamEvent → List StreamEvent
  | [] => [e]
  | f :: rest =>
    if e.isText && f.isText then .plain (e.text ++ f.text) :: rest else e :: f :: rest

/-- Joins neighbouring pieces of text. -/
def joinText (es : List StreamEvent) : List StreamEvent := es.foldr joinCons []

/-- A text as an event; nothing if it is empty. -/
def ofText (cs : List Char) : List StreamEvent :=
  if cs.isEmpty then [] else [.plain (String.ofList cs)]

@[simp] theorem text_plain (s : String) : (plain s).text = s := rfl

@[simp] theorem isText_plain (s : String) : (plain s).isText = true := rfl

@[simp] theorem ofText_nil : ofText [] = [] := rfl

theorem joinText_cons (e : StreamEvent) (es : List StreamEvent) :
    joinText (e :: es) = joinCons e (joinText es) := rfl

/-- An event that was joined to a list is joined to all that follows the list. -/
theorem foldr_joinCons_joinCons (e : StreamEvent) (js zs : List StreamEvent) :
    (joinCons e js).foldr joinCons zs = joinCons e (js.foldr joinCons zs) := by
  cases js with
  | nil => rfl
  | cons f rest =>
    by_cases h : e.isText && f.isText
    · obtain ⟨he, hf⟩ : e.isText = true ∧ f.isText = true := by simpa using h
      rw [joinCons, if_pos h, List.foldr_cons, List.foldr_cons]
      cases rest.foldr joinCons zs with
      | nil => simp [joinCons, he, hf]
      | cons g others => by_cases hg : g.isText <;> simp [joinCons, he, hf, hg, String.append_assoc]
    · rw [joinCons, if_neg h]
      rfl

theorem foldr_joinCons_joinText (xs zs : List StreamEvent) :
    (joinText xs).foldr joinCons zs = xs.foldr joinCons zs := by
  induction xs with
  | nil => rfl
  | cons e xs ih => rw [joinText_cons, foldr_joinCons_joinCons, ih, List.foldr_cons]

theorem joinText_append (xs ys : List StreamEvent) :
    joinText (xs ++ ys) = (joinText xs).foldr joinCons (joinText ys) := by
  rw [foldr_joinCons_joinText, joinText, List.foldr_append]
  rfl

/-- Lists may be joined part by part. -/
theorem joinText_append_congr {xs xs' ys ys' : List StreamEvent}
    (hx : joinText xs = joinText xs') (hy : joinText ys = joinText ys') :
    joinText (xs ++ ys) = joinText (xs' ++ ys') := by
  rw [joinText_append, joinText_append, hx, hy]

/-- A text may be cut in two. -/
theorem joinText_ofText_append (as bs : List Char) :
    joinText (ofText (as ++ bs)) = joinText (ofText as ++ ofText bs) := by
  cases as with
  | nil => rfl
  | cons a as =>
    cases bs with
    | nil => simp
    | cons b bs =>
      show [plain (String.ofList ((a :: as) ++ (b :: bs)))]
        = [plain (String.ofList (a :: as) ++ String.ofList (b :: bs))]
      rw [String.ofList_append]

/-! ### What joining leaves as it is -/

theorem eq_plain_of_isText {e : StreamEvent} (h : e.isText = true) : e = .plain e.text := by
  obtain ⟨text, special, tool, error⟩ := e
  cases special <;> cases tool <;> cases error <;> first | rfl | cases h

/-- Events that are no text are left as they are. -/
theorem filter_tool_joinText (es : List StreamEvent) :
    (joinText es).filter (·.tool) = es.filter (·.tool) := by
  induction es with
  | nil => rfl
  | cons e es ih =>
    rw [joinText_cons, List.filter_cons, ← ih]
    cases joinText es with
    | nil => exact List.filter_cons
    | cons f rest =>
      rw [joinCons]
      split
      · next h =>
        rw [Bool.and_eq_true] at h
        rw [eq_plain_of_isText h.1, eq_plain_of_isText h.2]
        rfl
      · exact List.filter_cons

/-- A piece of text that is made of one character only, or an event with tool calls. -/
def IsFill (fill : Char) (e : StreamEvent) : Prop :=
  e.tool = false → e.isText = true ∧ ∀ c ∈ e.text.toList, c = fill

/-- Pieces are made of one character if they are when joined. -/
theorem isFill_of_joinText {fill : Char} {es : List StreamEvent}
    (h : ∀ e ∈ joinText es, e.IsFill fill) : ∀ e ∈ es, e.IsFill fill := by
  induction es with
  | nil => simp
  | cons e es ih =>
    rw [joinText_cons] at h
    cases hjoin : joinText es with
    | nil =>
      rw [hjoin] at h ih
      exact List.forall_mem_cons.2 ⟨h e (by simp [joinCons]), ih (by simp)⟩
    | cons f rest =>
      rw [hjoin, joinCons] at h
      rw [hjoin] at ih
      split at h
      · next htext =>
        rw [Bool.and_eq_true] at htext
        obtain ⟨hfirst, hrest⟩ := List.forall_mem_cons.1 h
        have hchars := (hfirst rfl).2
        rw [text_plain, String.toList_append] at hchars
        rw [List.forall_mem_append] at hchars
        refine List.forall_mem_cons.2 ⟨fun _ => ⟨htext.1, hchars.1⟩, ih ?_⟩
        exact List.forall_mem_cons.2 ⟨fun _ => ⟨htext.2, hchars.2⟩, hrest⟩
      · obtain ⟨hfirst, hrest⟩ := List.forall_mem_cons.1 h
        exact List.forall_mem_cons.2 ⟨hfirst, ih hrest⟩

/-! ### Pieces that are joined already -/

/-- No two neighbours are both pieces of text. -/
def Apart (es : List StreamEvent) : Prop := es.IsChain fun e f => ¬ (e.isText && f.isText)

/-- There is no piece of text at the start. -/
def StartsAside (es : List StreamEvent) : Prop := ∀ e ∈ es.head?, e.isText = false

theorem apart_nil : Apart [] := .nil

theorem startsAside_nil : StartsAside [] := by
  intro e he
  cases he

theorem startsAside_cons {e : StreamEvent} {es : List StreamEvent} (he : e.isText = false) :
    StartsAside (e :: es) := by
  intro f hf
  obtain rfl : e = f := by simpa using hf
  exact he

theorem StartsAside.append {xs ys : List StreamEvent} (hx : StartsAside xs) (hy : StartsAside ys) :
    StartsAside (xs ++ ys) := by
  cases xs with
  | nil => exact hy
  | cons e xs => exact startsAside_cons (hx e rfl)

theorem apart_append {xs ys : List StreamEvent} (hx : Apart xs) (hy : Apart ys)
    (hs : StartsAside ys) : Apart (xs ++ ys) := by
  refine List.isChain_append.2 ⟨hx, hy, ?_⟩
  intro e _ f hf
  simp [hs f hf]

theorem apart_cons {e : StreamEvent} {es : List StreamEvent} (he : e.isText = false)
    (hs : Apart es) : Apart (e :: es) := by
  refine List.isChain_cons.2 ⟨?_, hs⟩
  intro f _
  simp [he]

theorem apart_ofText (cs : List Char) : Apart (ofText cs) := by
  unfold ofText
  split
  · exact .nil
  · exact .singleton _

/-- There is nothing to join. -/
theorem joinText_of_apart {es : List StreamEvent} (h : Apart es) : joinText es = es := by
  induction es with
  | nil => rfl
  | cons e es ih =>
    obtain ⟨hhead, htail⟩ := List.isChain_cons.1 h
    rw [joinText_cons, ih htail]
    cases es with
    | nil => rfl
    | cons f rest => exact if_neg (hhead f rfl)

end ChatRelay.StreamEvent
