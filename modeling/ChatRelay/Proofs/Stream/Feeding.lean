import ChatRelay.Proofs.Stream.Reading

/-!
# Feeding text in pieces

The classifier gets the text of a run piece by piece. What it has said so far, with a scan of what
it holds back and all that is still to come, is what a scan of the whole text says (`Continues`).
Each way to take text into account keeps this: `takeMarked_feeds` where regions are marked in the
text, `feed_feeds` in general. In the end there is nothing to come, and what is held back is given
up as it is (`release_reads`).
-/

namespace ChatRelay.Classifier

open Reading StreamEvent

/-! ### Events of outputs -/

namespace Setup

/-- The event of a region. -/
def call (s : Setup) : List Char → StreamEvent :=
  regionEvent (Prompt.callSyntax s.dialect) s.whitelist

theorem isText_call (s : Setup) (cs : List Char) : (s.call cs).isText = false := by
  unfold call regionEvent
  split <;> rfl

variable {s : Setup}

@[simp] theorem events_nil : s.events [] = [] := rfl

@[simp] theorem events_append (xs ys : List Output) :
    s.events (xs ++ ys) = s.events xs ++ s.events ys := List.filterMap_append

@[simp] theorem events_textOutput (cs : List Char) : s.events (textOutput cs) = ofText cs := by
  unfold textOutput ofText
  split <;> rfl

@[simp] theorem events_region_cons (cs : List Char) (outputs : List Output) :
    s.events (.region cs :: outputs) = s.call cs :: s.events outputs := rfl

@[simp] theorem events_control (cs : List Char) :
    s.events [.control cs] = [.control (String.ofList cs)] := rfl

end Setup

namespace State

/-! ### What of a state matters for text -/

/-- What has been collected in the open region, if one is open. -/
def openRegion (st : State) : Option (List Char) :=
  if st.inside then some st.region.reverse else none

theorem openRegion_outside {st : State} (h : st.inside = false) : st.openRegion = none := by
  simp [openRegion, h]

theorem openRegion_inside {st : State} (h : st.inside = true) :
    st.openRegion = some st.region.reverse := by
  simp [openRegion, h]

/-- The text that is held back could not be cut, and nothing is collected outside of a region. -/
structure Tidy (m : Markers) (st : State) : Prop where
  held : Markers.cut? (m.next st.inside) st.held = none
  region : st.inside = false → st.region = []

/-- A state as text in a framing leaves it. -/
def Fits : ToolFraming → State → Prop
  | .markers opening closing, st => st.Tidy ⟨opening.toList, closing.toList⟩
  | .tokens _ _, st => st.held = [] ∧ (st.inside = false → st.region = [])

/-- A state in which the same tokens are gathered. -/
structure SameTokens (st st' : State) : Prop where
  pending : st'.pending = st.pending
  finished : st'.finished = st.finished

/-- A reader of text, as `scan` and `read` are. -/
abbrev Reader := Option (List Char) → List Char → Option (List Char) × List StreamEvent

/-- With a text before it, reading goes on after a state and its events as it would have gone from
the state before. -/
structure Continues (reader : Reader) (st : State) (text : List Char) (st' : State)
    (es : List StreamEvent) : Prop where
  region : ∀ more,
    (reader st.openRegion (text ++ more)).1 = (reader st'.openRegion (st'.held ++ more)).1
  events : ∀ more,
    joinText (reader st.openRegion (text ++ more)).2 =
      joinText (es ++ (reader st'.openRegion (st'.held ++ more)).2)

/-! ### Scanning a growing text -/

section
variable {m : Markers} {call : List Char → StreamEvent} {text : List Char}

/-- Outside of a region, text that is not held back may be said. -/
theorem scan_outside_append (h : Markers.cut? m.opening text = none) (more : List Char) :
    (scan m call none (text ++ more)).1 =
        (scan m call none ((Markers.splitHeld m.opening text).2 ++ more)).1 ∧
      joinText (scan m call none (text ++ more)).2 =
        joinText (ofText (Markers.splitHeld m.opening text).1 ++
          (scan m call none ((Markers.splitHeld m.opening text).2 ++ more)).2) := by
  have hcut := Markers.cut?_append_of_none h more
  have htext := Markers.splitHeld_append m.opening text
  set settled := (Markers.splitHeld m.opening text).1
  set held := (Markers.splitHeld m.opening text).2
  cases hc : Markers.cut? m.opening (held ++ more) with
  | none =>
    rw [hc, Option.map_none] at hcut
    rw [scan_outside hcut, scan_outside hc]
    refine ⟨rfl, ?_⟩
    rw [← htext, List.append_assoc]
    exact joinText_ofText_append settled (held ++ more)
  | some parts =>
    obtain ⟨before, after⟩ := parts
    rw [hc, Option.map_some] at hcut
    rw [scan_opening hcut, scan_opening hc]
    refine ⟨rfl, ?_⟩
    rw [← List.append_assoc]
    exact joinText_append_congr (joinText_ofText_append settled before) rfl

/-- Inside of a region, text that is not held back may be collected. -/
theorem scan_inside_append (h : Markers.cut? m.closing text = none) (collected more : List Char) :
    scan m call (some collected) (text ++ more) =
      scan m call (some (collected ++ (Markers.splitHeld m.closing text).1))
        ((Markers.splitHeld m.closing text).2 ++ more) := by
  have hcut := Markers.cut?_append_of_none h more
  have htext := Markers.splitHeld_append m.closing text
  set settled := (Markers.splitHeld m.closing text).1
  set held := (Markers.splitHeld m.closing text).2
  cases hc : Markers.cut? m.closing (held ++ more) with
  | none =>
    rw [hc, Option.map_none] at hcut
    rw [scan_inside hcut, scan_inside hc, ← htext]
    simp
  | some parts =>
    obtain ⟨before, after⟩ := parts
    rw [hc, Option.map_some] at hcut
    rw [scan_closing hcut, scan_closing hc]
    simp

end

/-! ### Text with markers -/

/-- Takes a text into account that is cut at its markers. -/
def takeMarked (m : Markers) (st : State) (text : List Char) : State × List Output :=
  takeStretches m st (m.stretches st.inside text).1 (m.stretches st.inside text).2

section
variable {m : Markers} {st : State} {text before after : List Char}

theorem takeMarked_outside (hin : st.inside = false) (h : Markers.cut? m.opening text = none) :
    takeMarked m st text =
      ({ st with held := (Markers.splitHeld m.opening text).2 },
        textOutput (Markers.splitHeld m.opening text).1) := by
  have hs : m.stretches false text = (text, []) := Markers.stretches_of_none h
  simp [takeMarked, takeStretches, hin, hs, Markers.next]

theorem takeMarked_inside (hin : st.inside = true) (h : Markers.cut? m.closing text = none) :
    takeMarked m st text =
      ({ st with
          region := (Markers.splitHeld m.closing text).1.reverse ++ st.region
          held := (Markers.splitHeld m.closing text).2 }, []) := by
  have hs : m.stretches true text = (text, []) := Markers.stretches_of_none h
  simp [takeMarked, takeStretches, hin, hs, Markers.next]

theorem takeMarked_opening (hin : st.inside = false)
    (h : Markers.cut? m.opening text = some (before, after)) :
    takeMarked m st text =
      ((takeMarked m { st with inside := true } after).1,
        textOutput before ++ (takeMarked m { st with inside := true } after).2) := by
  have hs : m.stretches false text =
      (before, (m.stretches true after).1 :: (m.stretches true after).2) :=
    Markers.stretches_of_some h
  simp [takeMarked, takeStretches, hin, hs]

theorem takeMarked_closing (hin : st.inside = true)
    (h : Markers.cut? m.closing text = some (before, after)) :
    takeMarked m st text =
      ((takeMarked m { st with inside := false, region := [] } after).1,
        .region (st.region.reverse ++ before) ::
          (takeMarked m { st with inside := false, region := [] } after).2) := by
  have hs : m.stretches true text =
      (before, (m.stretches false after).1 :: (m.stretches false after).2) :=
    Markers.stretches_of_some h
  simp [takeMarked, takeStretches, hin, hs]

end

section
variable {m : Markers} {call : List Char → StreamEvent} {st st' : State}
  {text before after : List Char} {es : List StreamEvent}

/-- Outside of a region, text without a marker is said up to what is held back. -/
theorem continues_outside (hin : st.inside = false) (h : Markers.cut? m.opening text = none) :
    Continues (scan m call) st text { st with held := (Markers.splitHeld m.opening text).2 }
      (ofText (Markers.splitHeld m.opening text).1) := by
  have hregion := openRegion_outside hin
  have hregion' : openRegion { st with held := (Markers.splitHeld m.opening text).2 } = none :=
    openRegion_outside hin
  constructor
  · intro more
    rw [hregion, hregion']
    exact (scan_outside_append h more).1
  · intro more
    rw [hregion, hregion']
    exact (scan_outside_append h more).2

/-- Inside of a region, text without a marker is collected up to what is held back. -/
theorem continues_inside (hin : st.inside = true) (h : Markers.cut? m.closing text = none) :
    Continues (scan m call) st text
      { st with
        region := (Markers.splitHeld m.closing text).1.reverse ++ st.region
        held := (Markers.splitHeld m.closing text).2 } [] := by
  have hregion := openRegion_inside hin
  have hregion' : openRegion { st with
      region := (Markers.splitHeld m.closing text).1.reverse ++ st.region
      held := (Markers.splitHeld m.closing text).2 } =
        some (st.region.reverse ++ (Markers.splitHeld m.closing text).1) := by
    simp [openRegion, hin]
  constructor
  · intro more
    rw [hregion, hregion', scan_inside_append h]
  · intro more
    rw [hregion, hregion', scan_inside_append h, List.nil_append]

/-- An opening marker starts a region, and the text before it is said. -/
theorem continues_opening (hin : st.inside = false) (hr : st.region = [])
    (h : Markers.cut? m.opening text = some (before, after))
    (hafter : Continues (scan m call) { st with inside := true } after st' es) :
    Continues (scan m call) st text st' (ofText before ++ es) := by
  have hregion := openRegion_outside hin
  have hregion' : openRegion { st with inside := true } = some [] := by simp [openRegion, hr]
  constructor
  · intro more
    rw [hregion, scan_opening (Markers.cut?_append_of_some h more), ← hafter.region more, hregion']
  · intro more
    rw [hregion, scan_opening (Markers.cut?_append_of_some h more), List.append_assoc]
    refine joinText_append_congr rfl ?_
    rw [← hafter.events more, hregion']

/-- A closing marker ends a region, and its text is its content. -/
theorem continues_closing (hin : st.inside = true)
    (h : Markers.cut? m.closing text = some (before, after))
    (hafter : Continues (scan m call) { st with inside := false, region := [] } after st' es) :
    Continues (scan m call) st text st' (call (st.region.reverse ++ before) :: es) := by
  have hregion := openRegion_inside hin
  have hregion' : openRegion { st with inside := false, region := [] } = none :=
    openRegion_outside rfl
  constructor
  · intro more
    rw [hregion, scan_closing (Markers.cut?_append_of_some h more), ← hafter.region more, hregion']
  · intro more
    rw [hregion, scan_closing (Markers.cut?_append_of_some h more), List.cons_append, joinText_cons,
      joinText_cons, ← hafter.events more, hregion']

end

/-! ### Feeding -/

/-- What taking a text into account comes to: a state as text leaves it, with the same tokens
gathered, from which reading goes on. -/
structure Feeds (s : Setup) (fits : State → Prop) (reader : Reader) (st : State) (text : List Char)
    (result : State × List Output) : Prop where
  fits : fits result.1
  tokens : SameTokens st result.1
  continues : Continues reader st text result.1 (s.events result.2)

variable (s : Setup)

/-- A text that is cut at its markers is scanned. The first marker settles the text before it, and
leaves a shorter text to be taken. -/
theorem takeMarked_feeds (m : Markers) (st : State) (text : List Char)
    (hregion : st.inside = false → st.region = []) :
    Feeds s (Tidy m) (scan m s.call) st text (takeMarked m st text) := by
  -- Every cut changes the side that the state is on, so the state varies with the text.
  induction hn : text.length using Nat.strong_induction_on generalizing st text with
  | _ n ih =>
    cases hin : st.inside with
    | false =>
      cases hcut : Markers.cut? m.opening text with
      | none =>
        rw [takeMarked_outside hin hcut]
        refine ⟨⟨?_, hregion⟩, ⟨rfl, rfl⟩, ?_⟩
        · simpa [hin, Markers.next] using (Markers.splitHeld_held m.opening text).1
        · rw [Setup.events_textOutput]
          exact continues_outside hin hcut
      | some parts =>
        obtain ⟨before, after⟩ := parts
        have hlen : after.length < n := hn ▸ Markers.length_lt_of_cut? hcut
        have hnext := ih after.length hlen { st with inside := true } after (by simp) rfl
        rw [takeMarked_opening hin hcut]
        refine ⟨hnext.fits, ⟨hnext.tokens.pending, hnext.tokens.finished⟩, ?_⟩
        rw [Setup.events_append, Setup.events_textOutput]
        exact continues_opening hin (hregion hin) hcut hnext.continues
    | true =>
      cases hcut : Markers.cut? m.closing text with
      | none =>
        rw [takeMarked_inside hin hcut]
        refine ⟨⟨?_, by simp [hin]⟩, ⟨rfl, rfl⟩, continues_inside hin hcut⟩
        simpa [hin, Markers.next] using (Markers.splitHeld_held m.closing text).1
      | some parts =>
        obtain ⟨before, after⟩ := parts
        have hlen : after.length < n := hn ▸ Markers.length_lt_of_cut? hcut
        have hnext := ih after.length hlen { st with inside := false, region := [] } after
          (fun _ => rfl) rfl
        rw [takeMarked_closing hin hcut]
        exact ⟨hnext.fits, ⟨hnext.tokens.pending, hnext.tokens.finished⟩,
          continues_closing hin hcut hnext.continues⟩

/-- Feeding a text, after what was held back, is reading it. -/
theorem feed_feeds {framing : ToolFraming} {st : State} (h : st.Fits framing) (cs : List Char) :
    Feeds s (Fits framing) (read framing s.call) st (st.held ++ cs) (st.feed framing cs) := by
  cases framing with
  | markers opening closing =>
    exact takeMarked_feeds s ⟨opening.toList, closing.toList⟩ st (st.held ++ cs) h.region
  | tokens opening closing =>
    obtain ⟨hheld, hregion⟩ := h
    have htext : st.held ++ cs = cs := by rw [hheld, List.nil_append]
    rw [htext]
    cases hin : st.inside with
    | false =>
      have hfeed : st.feed (.tokens opening closing) cs = (st, textOutput cs) := by
        simp [feed, hin]
      rw [hfeed]
      refine ⟨⟨hheld, hregion⟩, ⟨rfl, rfl⟩, ?_, ?_⟩
      · intro more
        rw [openRegion_outside hin]
        rfl
      · intro more
        rw [openRegion_outside hin, hheld, Setup.events_textOutput]
        exact joinText_ofText_append cs more
    | true =>
      have hfeed : st.feed (.tokens opening closing) cs =
          ({ st with region := cs.reverse ++ st.region }, []) := by
        simp [feed, hin]
      have hregion' : openRegion { st with region := cs.reverse ++ st.region } =
          some (st.region.reverse ++ cs) := by
        simp [openRegion, hin]
      rw [hfeed]
      refine ⟨⟨hheld, by simp [hin]⟩, ⟨rfl, rfl⟩, ?_, ?_⟩
      · intro more
        rw [openRegion_inside hin, hregion']
        simp [Reading.read, hheld]
      · intro more
        rw [openRegion_inside hin, hregion']
        rfl

/-- What is held back is text after all, and giving it up is reading it. -/
theorem release_reads {framing : ToolFraming} {st : State} (h : st.Fits framing) :
    read framing s.call st.openRegion st.held =
      (st.release.1.openRegion, s.events st.release.2) := by
  cases hin : st.inside with
  | false =>
    have hread : read framing s.call none st.held = (none, ofText st.held) := by
      cases framing with
      | markers opening closing =>
        have hcut := h.held
        rw [hin] at hcut
        exact scan_outside hcut
      | tokens opening closing => rfl
    rw [openRegion_outside hin, hread]
    simp [release, openRegion, hin]
  | true =>
    have hread : read framing s.call (some st.region.reverse) st.held =
        (some (st.region.reverse ++ st.held), []) := by
      cases framing with
      | markers opening closing =>
        have hcut := h.held
        rw [hin] at hcut
        exact scan_inside hcut
      | tokens opening closing => rfl
    rw [openRegion_inside hin, hread]
    simp [release, openRegion, hin]

end State

end ChatRelay.Classifier
