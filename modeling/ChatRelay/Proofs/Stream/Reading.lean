import ChatRelay.Proofs.Stream.Cutting
import ChatRelay.Proofs.Stream.Joining
import ChatRelay.Proofs.Stream.Runs
import ChatRelay.Stream.Classifier

/-!
# What a whole reply means

The meaning of a reply, read with all of its tokens at hand. The reader cuts the reply into longest
runs of text tokens with the control tokens between them (`runs`), sees every run as one text, and
keeps in mind only whether a region of tool calls is open and what has been collected in it.

Where the dialect marks regions in the text, the text of a run is scanned for the markers (`scan`).
Where it marks them by control tokens, the text of a run goes to the client outside of a region and
is collected inside. In both cases `events` is what the client is to receive, and no two pieces of
text in it are neighbours (`joinText_events`).
-/

namespace ChatRelay

/-- The control token that opens a region, if the dialect has one. -/
def ToolFraming.opening? : ToolFraming → Option String
  | tokens opening _ => some opening
  | markers _ _ => none

/-- The control token that closes a region, if the dialect has one. -/
def ToolFraming.closing? : ToolFraming → Option String
  | tokens _ closing => closing
  | markers _ _ => none

namespace Reading

open StreamEvent

/-! ### Runs -/

/-- What a control token is to the reader. -/
inductive Control where
  | endOfTurn
  | opening
  | closing (t : TokenId)
  /-- A control token that the dialect does not use itself. -/
  | other (t : TokenId)
deriving DecidableEq, Repr

/-- What a control token is to the reader; `none` for a text token. The tokens that the dialect uses
are control tokens whether or not they always show. -/
def control? (g : Grammar) (v : Vocabulary) (t : TokenId) : Option Control :=
  if v.isNamed g.endOfTurn t then some .endOfTurn
  else if g.toolFraming.opening?.any (v.isNamed · t) then some .opening
  else if g.toolFraming.closing?.any (v.isNamed · t) then some (.closing t)
  else if v.rendersAlike t then none
  else some (.other t)

/-- The longest run of text tokens at the start of a reply, then every control token with the
longest run of text tokens after it. Runs may be empty. -/
def runs (g : Grammar) (v : Vocabulary) :
    List TokenId → List TokenId × List (Control × List TokenId)
  | [] => ([], [])
  | t :: rest =>
    let (run, others) := runs g v rest
    match control? g v t with
    | none => (t :: run, others)
    | some c => ([], (c, run) :: others)

/-- A reply all of whose runs can be read as they come. -/
structure Readable (g : Grammar) (v : Vocabulary) (tokens : List TokenId) : Prop where
  first : v.Readable (runs g v tokens).1
  others : ∀ p ∈ (runs g v tokens).2, v.Readable p.2

instance (g : Grammar) (v : Vocabulary) (tokens : List TokenId) : Decidable (Readable g v tokens) :=
  decidable_of_iff
    (v.Readable (runs g v tokens).1 ∧ ∀ p ∈ (runs g v tokens).2, v.Readable p.2)
    ⟨fun ⟨first, others⟩ => ⟨first, others⟩, fun ⟨first, others⟩ => ⟨first, others⟩⟩

/-! ### Reading text -/

/-- Scans a text for the markers of regions: outside of a region for the leftmost opening one,
inside for the leftmost closing one, and so on in turn. The region is what has been collected in it,
if one is open. -/
def scan (m : Markers) (call : List Char → StreamEvent) :
    Option (List Char) → List Char → Option (List Char) × List StreamEvent
  | none, text =>
    match h : Markers.cut? m.opening text with
    | none => (none, ofText text)
    | some (before, after) =>
      have := Markers.length_lt_of_cut? h
      let (region, es) := scan m call (some []) after
      (region, ofText before ++ es)
  | some collected, text =>
    match h : Markers.cut? m.closing text with
    | none => (some (collected ++ text), [])
    | some (before, after) =>
      have := Markers.length_lt_of_cut? h
      let (region, es) := scan m call none after
      (region, call (collected ++ before) :: es)
termination_by _ text => text.length

/-- Reads the text of a run. -/
def read (framing : ToolFraming) (call : List Char → StreamEvent) (region : Option (List Char))
    (text : List Char) : Option (List Char) × List StreamEvent :=
  match framing with
  | .markers opening closing => scan ⟨opening.toList, closing.toList⟩ call region text
  | .tokens _ _ =>
    match region with
    | none => (none, ofText text)
    | some collected => (some (collected ++ text), [])

/-! ### Reading a reply -/

/-- What becomes of an open region when the reply ends: it ends too, unless it is blank. -/
def ending (call : List Char → StreamEvent) : Option (List Char) → List StreamEvent
  | none => []
  | some collected => if collected.all Text.isBlank then [] else [call collected]

/-- Reads a control token that is not the end of the turn. -/
def heed (v : Vocabulary) (call : List Char → StreamEvent) (region : Option (List Char)) :
    Control → Option (List Char) × List StreamEvent
  | .endOfTurn => (region, [])
  | .opening => (region.or (some []), [])
  | .closing t =>
    match region with
    | none => (none, [.control (v.spelling t)])
    | some collected => (none, [call collected])
  | .other t => (region, [.control (v.spelling t)])

/-- The events of what comes after a run. The end of the turn ends the reply. -/
def eventsAfter (g : Grammar) (v : Vocabulary) (call : List Char → StreamEvent) :
    Option (List Char) → List (Control × List TokenId) → List StreamEvent
  | region, [] => ending call region
  | region, (.endOfTurn, _) :: _ => ending call region
  | region, (c, run) :: others =>
    let (region, heeded) := heed v call region c
    let (region, es) := read g.toolFraming call region (v.textOf run)
    heeded ++ (es ++ eventsAfter g v call region others)

/-- The events of a reply by the text of its first run and what comes after. -/
def events (g : Grammar) (v : Vocabulary) (call : List Char → StreamEvent)
    (region : Option (List Char)) (text : List Char) (others : List (Control × List TokenId)) :
    List StreamEvent :=
  let (region, es) := read g.toolFraming call region text
  es ++ eventsAfter g v call region others

/-- The events of a reply in a dialect. A region is one event: the calls in it that may be made, or
its text if there are none. -/
def replyEvents (d : Dialect) (v : Vocabulary) (w : Whitelist) (tokens : List TokenId) :
    List StreamEvent :=
  let (run, others) := runs d.grammar v tokens
  events d.grammar v (Classifier.regionEvent (Prompt.callSyntax d) w) none (v.textOf run) others

section
variable {g : Grammar} {v : Vocabulary} {call : List Char → StreamEvent}
  {region region' : Option (List Char)} {text text' : List Char}
  {others : List (Control × List TokenId)}

theorem events_eq (region : Option (List Char)) (text : List Char) :
    events g v call region text others =
      (read g.toolFraming call region text).2 ++
        eventsAfter g v call (read g.toolFraming call region text).1 others := rfl

theorem eventsAfter_cons {c : Control} (run : List TokenId) (hc : c ≠ .endOfTurn) :
    eventsAfter g v call region ((c, run) :: others) =
      (heed v call region c).2 ++
        events g v call (heed v call region c).1 (v.textOf run) others := by
  cases c with
  | endOfTurn => exact absurd rfl hc
  | _ => rfl

/-- Where a run may be read in two ways, the reply may. -/
theorem events_congr {es : List StreamEvent}
    (hregion : (read g.toolFraming call region text).1 = (read g.toolFraming call region' text').1)
    (hes : joinText (read g.toolFraming call region text).2 =
      joinText (es ++ (read g.toolFraming call region' text').2)) :
    joinText (events g v call region text others) =
      joinText (es ++ events g v call region' text' others) := by
  rw [events_eq, events_eq, hregion, ← List.append_assoc]
  exact joinText_append_congr hes rfl

end

/-! ### Scanning, case by case -/

section
variable {m : Markers} {call : List Char → StreamEvent} {text before after collected : List Char}

theorem scan_outside (h : Markers.cut? m.opening text = none) :
    scan m call none text = (none, ofText text) := by
  conv_lhs => unfold scan
  split
  · rfl
  · next hcut => simp [hcut] at h

theorem scan_opening (h : Markers.cut? m.opening text = some (before, after)) :
    scan m call none text =
      ((scan m call (some []) after).1, ofText before ++ (scan m call (some []) after).2) := by
  conv_lhs => unfold scan
  split
  · next hcut => simp [hcut] at h
  · next b a hcut =>
    obtain ⟨rfl, rfl⟩ : b = before ∧ a = after := by simpa [hcut] using h
    rfl

theorem scan_inside (h : Markers.cut? m.closing text = none) :
    scan m call (some collected) text = (some (collected ++ text), []) := by
  conv_lhs => unfold scan
  split
  · rfl
  · next hcut => simp [hcut] at h

theorem scan_closing (h : Markers.cut? m.closing text = some (before, after)) :
    scan m call (some collected) text =
      ((scan m call none after).1, call (collected ++ before) :: (scan m call none after).2) := by
  conv_lhs => unfold scan
  split
  · next hcut => simp [hcut] at h
  · next b a hcut =>
    obtain ⟨rfl, rfl⟩ : b = before ∧ a = after := by simpa [hcut] using h
    rfl

end

/-! ### Pieces of text are no neighbours -/

section
variable {call : List Char → StreamEvent} (hcall : ∀ cs, (call cs).isText = false)
include hcall

/-- A scan says no two pieces of text in a row, and inside of a region none first. -/
theorem scan_apart (m : Markers) (region : Option (List Char)) (text : List Char) :
    Apart (scan m call region text).2 ∧
      (region.isSome → StartsAside (scan m call region text).2) := by
  induction region, text using scan.induct m call with
  | case1 text h =>
    rw [scan_outside h]
    exact ⟨apart_ofText text, by simp⟩
  | case2 text before after h _ _ _ _ ih =>
    rw [scan_opening h]
    exact ⟨apart_append (apart_ofText before) ih.1 (ih.2 rfl), by simp⟩
  | case3 collected text h =>
    rw [scan_inside h]
    exact ⟨apart_nil, fun _ => startsAside_nil⟩
  | case4 collected text before after h _ _ _ _ ih =>
    rw [scan_closing h]
    exact ⟨apart_cons (hcall _) ih.1, fun _ => startsAside_cons (hcall _)⟩

theorem read_apart (framing : ToolFraming) (region : Option (List Char)) (text : List Char) :
    Apart (read framing call region text).2 ∧
      (region.isSome → StartsAside (read framing call region text).2) := by
  cases framing with
  | markers opening closing => exact scan_apart hcall _ region text
  | tokens opening closing =>
    cases region with
    | none => exact ⟨apart_ofText text, by simp⟩
    | some collected => exact ⟨apart_nil, fun _ => startsAside_nil⟩

theorem ending_apart (region : Option (List Char)) :
    Apart (ending call region) ∧ StartsAside (ending call region) := by
  cases region with
  | none => exact ⟨apart_nil, startsAside_nil⟩
  | some collected =>
    rw [ending]
    split
    · exact ⟨apart_nil, startsAside_nil⟩
    · exact ⟨apart_cons (hcall _) apart_nil, startsAside_cons (hcall _)⟩

/-- A control token says no text; and what follows one that says nothing is inside of a region. -/
theorem heed_apart (v : Vocabulary) (region : Option (List Char)) {c : Control}
    (hc : c ≠ .endOfTurn) :
    (∃ e, (heed v call region c).2 = [e] ∧ e.isText = false) ∨
      (heed v call region c).2 = [] ∧ (heed v call region c).1.isSome := by
  cases c with
  | endOfTurn => exact absurd rfl hc
  | opening => exact .inr ⟨rfl, by cases region <;> rfl⟩
  | other t => exact .inl ⟨_, rfl, rfl⟩
  | closing t =>
    cases region with
    | none => exact .inl ⟨_, rfl, rfl⟩
    | some collected => exact .inl ⟨_, rfl, hcall _⟩

theorem heed_append_apart (v : Vocabulary) (region : Option (List Char)) {c : Control}
    {es : List StreamEvent} (hc : c ≠ .endOfTurn) (ha : Apart es)
    (hs : (heed v call region c).1.isSome → StartsAside es) :
    Apart ((heed v call region c).2 ++ es) ∧ StartsAside ((heed v call region c).2 ++ es) := by
  rcases heed_apart hcall v region hc with ⟨e, he, htext⟩ | ⟨he, hopen⟩
  · rw [he]
    exact ⟨apart_cons htext ha, startsAside_cons htext⟩
  · rw [he]
    exact ⟨ha, hs hopen⟩

/-- What does not start with text may come after a run. -/
theorem read_append_apart (framing : ToolFraming) (region : Option (List Char)) (text : List Char)
    {es : List StreamEvent} (ha : Apart es) (hs : StartsAside es) :
    Apart ((read framing call region text).2 ++ es) ∧
      (region.isSome → StartsAside ((read framing call region text).2 ++ es)) := by
  obtain ⟨hread, hopen⟩ := read_apart hcall framing region text
  exact ⟨apart_append hread ha hs, fun hr => (hopen hr).append hs⟩

theorem eventsAfter_apart (g : Grammar) (v : Vocabulary) (region : Option (List Char))
    (others : List (Control × List TokenId)) :
    Apart (eventsAfter g v call region others) ∧
      StartsAside (eventsAfter g v call region others) := by
  induction others generalizing region with
  | nil => exact ending_apart hcall region
  | cons p others ih =>
    obtain ⟨c, run⟩ := p
    by_cases hc : c = .endOfTurn
    · subst hc
      exact ending_apart hcall region
    · rw [eventsAfter_cons run hc, events_eq]
      obtain ⟨ha, hs⟩ := ih (read g.toolFraming call (heed v call region c).1 (v.textOf run)).1
      obtain ⟨hread, hopen⟩ := read_append_apart hcall g.toolFraming (heed v call region c).1
        (v.textOf run) ha hs
      exact heed_append_apart hcall v region hc hread hopen

/-- The events of a reply have nothing to join. -/
theorem joinText_events (g : Grammar) (v : Vocabulary) (region : Option (List Char))
    (text : List Char) (others : List (Control × List TokenId)) :
    joinText (events g v call region text others) = events g v call region text others := by
  obtain ⟨ha, hs⟩ := eventsAfter_apart hcall g v (read g.toolFraming call region text).1 others
  exact joinText_of_apart (read_append_apart hcall g.toolFraming region text ha hs).1

end

end Reading

end ChatRelay
