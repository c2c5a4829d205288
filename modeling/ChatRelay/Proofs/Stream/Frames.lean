import ChatRelay.Stream.Classifier

/-!
# What a token leaves alone

Of everything that the classifier does, only the end of the turn ends the reply: text may be fed,
held back, gathered and read lossily, and other control tokens may come, and the reply goes on
(`finished_push`, `finished_pushAll`). And whatever the classifier says, it never says that a reply
failed (`error_events`).
-/

namespace ChatRelay.Classifier

namespace State

/-- Taking text changes what is open, held back and collected, and nothing else. -/
theorem takeStretches_frame (m : Markers) (st : State) (s : List Char)
    (others : List (List Char)) :
    ∃ inside held region,
      (takeStretches m st s others).1 = { st with inside, held, region } := by
  induction others generalizing st s with
  | nil =>
    rw [takeStretches]
    cases st.inside <;> exact ⟨_, _, _, rfl⟩
  | cons t others ih =>
    rw [takeStretches]
    cases st.inside with
    | false => exact ih { st with inside := true } t
    | true => exact ih { st with inside := false, region := [] } t

theorem feed_frame (framing : ToolFraming) (st : State) (cs : List Char) :
    ∃ inside held region, (st.feed framing cs).1 = { st with inside, held, region } := by
  cases framing with
  | markers opening closing => exact takeStretches_frame _ st _ _
  | tokens opening closing =>
    rw [feed]
    cases st.inside <;> exact ⟨_, _, _, rfl⟩

theorem finished_feed (framing : ToolFraming) (st : State) (cs : List Char) :
    (st.feed framing cs).1.finished = st.finished := by
  obtain ⟨inside, held, region, h⟩ := feed_frame framing st cs
  rw [h]

theorem context_feed (framing : ToolFraming) (st : State) (cs : List Char) :
    (st.feed framing cs).1.context = st.context := by
  obtain ⟨inside, held, region, h⟩ := feed_frame framing st cs
  rw [h]

theorem finished_release (st : State) : st.release.1.finished = st.finished := by
  rw [release]
  cases st.inside <;> rfl

theorem context_release (st : State) : st.release.1.context = st.context := by
  rw [release]
  cases st.inside <;> rfl

end State

namespace Setup

variable {s : Setup} {st : State} {t : TokenId}

theorem finished_takeControl (ht : t ≠ s.endOfTurn) (shown : List UInt8) :
    (s.takeControl st t shown).1.finished = st.finished := by
  rw [takeControl, if_neg ht]
  split
  · rfl
  split
  · rfl
  · exact State.finished_release st

theorem finished_flush (s : Setup) (st : State) : (s.flush st).1.finished = st.finished := by
  rw [flush]
  split
  · rfl
  split
  · exact State.finished_feed _ _ _
  · rfl

theorem finished_gather (s : Setup) (st : State) (t : TokenId) :
    (s.gather st t).1.finished = st.finished := by
  simp only [gather]
  split
  · rfl
  split
  · exact State.finished_feed _ _ _
  split
  · exact State.finished_feed _ _ _
  · rfl

theorem finished_takeText (s : Setup) (st : State) (t : TokenId) (bytes : List UInt8) :
    (s.takeText st t bytes).1.finished = st.finished := by
  rw [takeText]
  split
  · split
    · exact State.finished_feed _ _ _
    · rfl
  · exact finished_gather s st t

/-- A token that is not the end of the turn leaves the reply open. -/
theorem finished_push (ht : t ≠ s.endOfTurn) : (s.push st t).1.finished = st.finished := by
  rw [push]
  split
  · rfl
  split
  · rfl
  split
  · exact (finished_takeControl ht _).trans (finished_flush s st)
  · exact finished_takeText s st t _

/-- So do all tokens before the end of the turn. -/
theorem finished_pushAll {ts : List TokenId} (hts : s.endOfTurn ∉ ts) :
    (s.pushAll st ts).1.finished = st.finished := by
  induction ts generalizing st with
  | nil => rfl
  | cons t ts ih =>
    obtain ⟨hne, hrest⟩ := not_or.1 fun h => hts (List.mem_cons.2 h)
    show (s.pushAll (s.push st t).1 ts).1.finished = st.finished
    rw [ih hrest, finished_push (Ne.symm hne)]

/-- The classifier never says that a reply failed. -/
theorem error_events (outputs : List Output) : ∀ e ∈ s.events outputs, e.error = false := by
  intro e he
  obtain ⟨output, -, hevent⟩ := List.mem_filterMap.1 he
  cases output with
  | text cs => cases hevent; rfl
  | control cs => cases hevent; rfl
  | region cs =>
    obtain rfl : regionEvent (Prompt.callSyntax s.dialect) s.whitelist cs = e :=
      Option.some.inj hevent
    rw [regionEvent]
    split <;> rfl
  | skipped token err => cases hevent
  | lossy count => cases hevent
  | dropped count err => cases hevent

end Setup

end ChatRelay.Classifier
