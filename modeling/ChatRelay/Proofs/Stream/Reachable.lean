import ChatRelay.Proofs.Stream.Withholding
import ChatRelay.Proofs.Stream.ToolEvents
import ChatRelay.Proofs.Stream.Frames

/-!
# What holds of a classifier at any time

A classifier is pushed tokens and told to finish, in any order and as often as one likes. Beside it
runs `since`, the text decoded since the region changed last or a control token came; it knows
nothing of what is held back. Until the classifier is finished, its state is `Live`: few tokens are
gathered, none of which is text yet, and `since` is tracked. Every token keeps this (`push_live`),
finishing empties the state for good (`ended_finish`), and so all of it holds after any calls
(`actAll_reached`).
-/

namespace ChatRelay.Classifier

open StreamEvent State

/-- The number of marks of an event. -/
def markCount (e : StreamEvent) : Nat :=
  e.special.toNat + e.tool.toNat + e.error.toNat

/-! ### Calls -/

/-- A call to a classifier. -/
inductive Action where
  | push (token : TokenId)
  | finish
deriving DecidableEq, Repr

/-- What a token is to a classifier. -/
inductive TokenKind where
  /-- It comes after the end of the turn, or cannot be rendered. -/
  | ignored
  | control
  | text
deriving DecidableEq, Repr

namespace Setup

/-- Takes a call. -/
def act (s : Setup) (st : State) : Action → State × List Output
  | .push token => s.push st token
  | .finish => st.finish

/-- Takes calls one by one. -/
def actAll (s : Setup) : State → List Action → State × List Output
  | st, [] => (st, [])
  | st, a :: rest =>
    let (st, outputs) := s.act st a
    let (st, others) := actAll s st rest
    (st, outputs ++ others)

/-- What a token is. -/
def kind (s : Setup) (st : State) (token : TokenId) : TokenKind :=
  if st.finished then .ignored
  else
    match s.renderings st token with
    | .error _ => .ignored
    | .ok (plain, shown) =>
      if s.isFraming token ∨ plain ≠ shown then .control else .text

/-- The text decoded ahead of a control token. -/
def decodedAhead (s : Setup) (st : State) : List Char :=
  if st.pending.isEmpty then []
  else
    match s.codec.detokenize st.pending st.context false with
    | .ok bytes => Utf8.decodeLossy bytes
    | .error _ => []

/-- The text decoded with a text token. -/
def decodedWith (s : Setup) (st : State) (token : TokenId) : List Char :=
  match s.codec.detokenize (st.pending ++ [token]) st.context false with
  | .error _ => []
  | .ok bytes =>
    match Utf8.decodeChars? bytes with
    | some cs => cs
    | none =>
      if gatherLimit ≤ (st.pending ++ [token]).length then Utf8.decodeLossy bytes else []

/-- The text decoded since the region changed last or a control token came, after one more call. The
end of the turn does not count as such a token. -/
def since (s : Setup) (st : State) (text : List Char) : Action → List Char
  | .finish => text
  | .push token =>
    match s.kind st token with
    | .ignored => text
    | .control =>
      if token = s.endOfTurn then
        s.dialect.grammar.toolFraming.lastStretch st.inside (text ++ s.decodedAhead st)
      else []
    | .text =>
      s.dialect.grammar.toolFraming.lastStretch st.inside (text ++ s.decodedWith st token)

/-- The same after calls. -/
def sinceAll (s : Setup) : State → List Char → List Action → List Char
  | _, text, [] => text
  | st, text, a :: rest => sinceAll s (s.act st a).1 (s.since st text a) rest

end Setup

/-! ### One token -/

section
variable {s : Setup} {st : State} {t : TokenId} {text : List Char} {es : List StreamEvent}

theorem push_of_ignored (h : s.kind st t = .ignored) :
    (s.push st t).1 = st ∧ s.events (s.push st t).2 = [] := by
  unfold Setup.kind at h
  split at h
  · next hfinished => simp [Setup.push, hfinished]
  next hlive =>
  split at h
  · next e he =>
    rw [Setup.push, if_neg hlive, he]
    exact ⟨rfl, rfl⟩
  · split at h <;> cases h

/-- A control token is taken after what is gathered has been read. -/
theorem push_of_control (h : s.kind st t = .control) :
    ∃ shown, s.push st t =
      ((s.takeControl { (s.flush st).1 with context := t :: (s.flush st).1.context } t shown).1,
        (s.flush st).2 ++
          (s.takeControl { (s.flush st).1 with context := t :: (s.flush st).1.context } t
            shown).2) := by
  unfold Setup.kind at h
  split at h
  · cases h
  next hlive =>
  split at h
  · cases h
  next plain shown hrender =>
  split at h
  · next hcontrol =>
    refine ⟨shown, ?_⟩
    rw [Setup.push, if_neg hlive, hrender]
    simp only [if_pos hcontrol]
  · cases h

/-- A single token is gathered as several are. -/
theorem takeText_eq_gather {bytes : List UInt8}
    (h : s.codec.detokenize [t] st.context false = .ok bytes) :
    s.takeText st t bytes = s.gather st t := by
  obtain ⟨context, inside, held, region, pending, finished⟩ := st
  cases pending with
  | nil =>
    cases hchars : Utf8.decodeChars? bytes with
    | some cs => simp [Setup.takeText, Setup.gather, h, hchars]
    | none => simp [Setup.takeText, Setup.gather, h, hchars, gatherLimit]
  | cons p ps => rfl

theorem push_of_text (h : s.kind st t = .text) : s.push st t = s.gather st t := by
  unfold Setup.kind at h
  split at h
  · cases h
  next hlive =>
  split at h
  · cases h
  next plain shown hrender =>
  split at h
  · cases h
  next htext =>
  obtain ⟨plain', hplain, hrest⟩ := ok_of_bind hrender
  obtain ⟨shown', -, hboth⟩ := ok_of_bind hrest
  obtain ⟨rfl, rfl⟩ := Prod.mk.inj (Except.ok.inj hboth)
  rw [Setup.push, if_neg hlive, hrender]
  simp only [if_neg htext]
  exact takeText_eq_gather hplain

end

/-! ### Until the end -/

/-- A classifier that was not told to finish, with the text since the last marker or control token
and the events so far. -/
structure Live (s : Setup) (st : State) (text : List Char) (es : List StreamEvent) : Prop where
  tracks : Tracks s.dialect.grammar.toolFraming st text es
  short : st.pending.length < gatherLimit
  unread : st.pending ≠ [] → ∃ bytes,
    s.codec.detokenize st.pending st.context false = .ok bytes ∧ Utf8.decodeChars? bytes = none

section
variable {s : Setup} {st : State} {t : TokenId} {text : List Char} {es : List StreamEvent}

/-- No marker is empty. -/
theorem marker_ne_nil (d : Dialect) (inside : Bool) :
    ∀ marker ∈ d.grammar.toolFraming.marker? inside, marker ≠ [] := by
  cases d <;> cases inside <;> decide

/-- Where nothing was decoded, the text stays as it is. -/
theorem Tracks.lastStretch_self {framing : ToolFraming} (h : Tracks framing st text es) :
    framing.lastStretch st.inside text = text := by
  cases framing with
  | markers opening closing => exact Markers.lastStretch_of_none (h.uncut _ rfl)
  | tokens opening closing => rfl

/-- Which tokens are read and gathered has no bearing on text. -/
theorem Tracks.setTokens {framing : ToolFraming} (h : Tracks framing st text es)
    (context pending : List TokenId) (finished : Bool) :
    Tracks framing { st with context, pending, finished } text es :=
  ⟨h.uncut, h.held, h.held_tokens, h.region, h.said, h.collected, h.sayable⟩

theorem Tracks.fits {framing : ToolFraming} (h : Tracks framing st text es) :
    st.Fits framing := by
  cases framing with
  | markers opening closing =>
    refine ⟨?_, h.region⟩
    rw [h.held _ rfl]
    exact (Markers.splitHeld_held _ text).1
  | tokens opening closing => exact ⟨h.held_tokens rfl, h.region⟩

/-- Nothing need be said of the tokens gathered where there are none. -/
theorem live_of_pending_nil (h : Tracks s.dialect.grammar.toolFraming st text es)
    (hpending : st.pending = []) : Live s st text es where
  tracks := h
  short := by rw [hpending]; exact Nat.zero_lt_succ 7
  unread hne := absurd hpending hne

theorem live_initial (s : Setup) (prompt : List TokenId) : Live s (.initial prompt) [] [] :=
  live_of_pending_nil (tracks_nil rfl (fun _ => rfl) (fun _ => rfl) (sayable_nil _)) rfl

/-- What there is to tell the operator only changes nothing. -/
theorem Live.quiet (h : Live s st text es) {outputs : List Output}
    (hquiet : s.events outputs = []) : Live s st text (es ++ s.events outputs) := by
  rwa [hquiet, List.append_nil]

/-- Nothing is gathered where text has just been fed. -/
theorem feed_live (h : Live s st text es) (context : List TokenId) (cs : List Char)
    {result : State × List Output}
    (hresult : { st with context, pending := [] }.feed s.dialect.grammar.toolFraming cs = result) :
    Live s result.1 (s.dialect.grammar.toolFraming.lastStretch st.inside (text ++ cs))
        (es ++ s.events result.2) ∧ result.1.pending = [] := by
  subst hresult
  have hread := h.tracks.setTokens context [] st.finished
  have hfed := feed_tracks s (marker_ne_nil s.dialect false) hread cs
  have hpending := (feed_feeds s hread.fits cs).tokens.pending
  exact ⟨live_of_pending_nil hfed hpending, hpending⟩

/-- A text token is fed with the tokens gathered, or gathered with them, or skipped. -/
theorem gather_live (h : Live s st text es) (t : TokenId) :
    Live s (s.gather st t).1
      (s.dialect.grammar.toolFraming.lastStretch st.inside (text ++ s.decodedWith st t))
      (es ++ s.events (s.gather st t).2) := by
  have hself : s.dialect.grammar.toolFraming.lastStretch st.inside (text ++ []) = text := by
    rw [List.append_nil, h.tracks.lastStretch_self]
  rw [Setup.gather, Setup.decodedWith]
  cases hbytes : s.codec.detokenize (st.pending ++ [t]) st.context false with
  | error e =>
    simp only [hself]
    exact h.quiet rfl
  | ok bytes =>
    cases hchars : Utf8.decodeChars? bytes with
    | some cs =>
      simp only [hchars]
      exact (feed_live h _ cs rfl).1
    | none =>
      by_cases hlen : gatherLimit ≤ (st.pending ++ [t]).length
      · simp only [hchars, if_pos hlen]
        exact (feed_live h _ _ rfl).1
      · simp only [hchars, if_neg hlen, hself]
        have htracks := h.tracks.setTokens st.context (st.pending ++ [t]) st.finished
        have hlive : Live s { st with pending := st.pending ++ [t] } text es :=
          ⟨htracks, Nat.lt_of_not_le hlen, fun _ => ⟨bytes, hbytes, hchars⟩⟩
        exact hlive.quiet rfl

/-- Ahead of a control token, what is gathered is fed or dropped. -/
theorem flush_live (h : Live s st text es) :
    Live s (s.flush st).1
        (s.dialect.grammar.toolFraming.lastStretch st.inside (text ++ s.decodedAhead st))
        (es ++ s.events (s.flush st).2) ∧ (s.flush st).1.pending = [] := by
  have hself : s.dialect.grammar.toolFraming.lastStretch st.inside (text ++ []) = text := by
    rw [List.append_nil, h.tracks.lastStretch_self]
  rw [Setup.flush, Setup.decodedAhead]
  split
  · next hpending =>
    rw [hself]
    exact ⟨h.quiet rfl, List.isEmpty_iff.1 hpending⟩
  · cases hbytes : s.codec.detokenize st.pending st.context false with
    | ok bytes => exact feed_live h _ _ rfl
    | error e =>
      simp only [hself]
      have htracks := h.tracks.setTokens st.context [] st.finished
      exact ⟨(live_of_pending_nil htracks rfl).quiet rfl, trivial⟩

/-- Where a token opens or closes regions, nothing is held back. -/
theorem Tracks.held_nil (h : Tracks s.dialect.grammar.toolFraming st text es) (hs : s.Framed)
    (ht : some t = s.toolOpen ∨ some t = s.toolClose) : st.held = [] := by
  have hunmarked := hs t ht
  refine h.held_tokens ?_
  cases hframing : s.dialect.grammar.toolFraming with
  | markers opening closing => exact absurd hframing (hunmarked opening closing)
  | tokens opening closing? => rfl

/-- A control token is said after what is held back, or it opens or closes a region. -/
theorem takeControl_tracks (hs : s.Framed) (h : Tracks s.dialect.grammar.toolFraming st text es)
    (ht : t ≠ s.endOfTurn) (shown : List UInt8) :
    Tracks s.dialect.grammar.toolFraming (s.takeControl st t shown).1 []
        (es ++ s.events (s.takeControl st t shown).2) ∧
      SameTokens st (s.takeControl st t shown).1 := by
  rw [Setup.takeControl, if_neg ht]
  split
  · next hopen =>
    have hheld := h.held_nil hs (.inl hopen)
    refine ⟨?_, rfl, rfl⟩
    rw [Setup.events_nil, List.append_nil]
    refine tracks_nil hheld ?_ ?_ h.sayable
    · intro hout
      cases hout
    · intro hout
      cases hout
  split
  · next hclose =>
    have hheld := h.held_nil hs (.inr hclose.1)
    have hcall := s.isText_call st.region.reverse
    refine ⟨?_, rfl, rfl⟩
    exact tracks_nil hheld (fun _ => rfl) (fun _ => lastText_concat es hcall)
      (h.sayable.append (sayable_singleton hcall))
  · obtain ⟨hheld, hinside, htokens, hregion⟩ := release_frame st
    have hsayable := h.sayable.append (h.sayable_release s (marker_ne_nil s.dialect false))
    refine ⟨?_, htokens⟩
    simp only [Setup.events_append, Setup.events_control, ← List.append_assoc]
    refine tracks_nil hheld ?_ ?_ (hsayable.append (sayable_singleton rfl))
    · intro hout
      rw [hinside] at hout
      rw [hregion hout, h.region hout]
    · intro _
      exact lastText_concat _ rfl

/-- A token, whatever it is, leaves the classifier live. -/
theorem push_live (hs : s.Framed) (h : Live s st text es) (t : TokenId) :
    Live s (s.push st t).1 (s.since st text (.push t)) (es ++ s.events (s.push st t).2) := by
  rw [Setup.since]
  cases hkind : s.kind st t with
  | ignored =>
    obtain ⟨hsame, hquiet⟩ := push_of_ignored hkind
    rw [hsame]
    exact h.quiet hquiet
  | text =>
    rw [push_of_text hkind]
    exact gather_live h t
  | control =>
    obtain ⟨shown, hpush⟩ := push_of_control hkind
    obtain ⟨hflushed, hpending⟩ := flush_live h
    rw [hpush, Setup.events_append, ← List.append_assoc]
    have htracks := hflushed.tracks.setTokens (t :: (s.flush st).1.context) (s.flush st).1.pending
      (s.flush st).1.finished
    by_cases ht : t = s.endOfTurn
    · simp only [Setup.takeControl, if_pos ht, Setup.events_nil, List.append_nil]
      exact live_of_pending_nil (htracks.setTokens _ _ true) hpending
    · obtain ⟨hnext, htokens⟩ := takeControl_tracks hs htracks ht shown
      rw [if_neg ht]
      exact live_of_pending_nil hnext (htokens.pending.trans hpending)

end

/-! ### The end -/

/-- A classifier that is finished for good. -/
structure Ended (s : Setup) (st : State) : Prop where
  pending : st.pending = []
  held : st.held = []
  region : st.region = []
  phase : st.phase = .normal
  finished : st.finished = true
  /-- No call says or changes anything any more. -/
  still : ∀ a, s.act st a = (st, [])

section
variable {s : Setup} {st : State} {text : List Char} {es : List StreamEvent}

theorem ended_of_empty (hpending : st.pending = []) (hheld : st.held = [])
    (hregion : st.region = []) (hinside : st.inside = false) (hfinished : st.finished = true) : Ended s st := by
  obtain ⟨context, inside, held, region, pending, finished⟩ := st
  obtain rfl : pending = [] := hpending
  obtain rfl : held = [] := hheld
  obtain rfl : region = [] := hregion
  obtain rfl : inside = false := hinside
  obtain rfl : finished = true := hfinished
  refine ⟨rfl, rfl, rfl, rfl, rfl, ?_⟩
  intro a
  cases a <;> rfl

/-- Finishing empties the state, whatever was gathered, held back or collected. -/
theorem ended_finish (h : Live s st text es) : Ended s st.finish.1 := by
  have hregion := h.tracks.region
  cases hin : st.inside with
  | false =>
    have hfinish : st.finish.1 = { st with held := [], pending := [], finished := true } := by
      simp [State.finish, State.release, hin]
    rw [hfinish]
    exact ended_of_empty rfl rfl (hregion hin) hin rfl
  | true =>
    have hfinish : st.finish.1 =
        { st with inside := false, held := [], region := [], pending := [], finished := true } := by
      cases hblank : (st.held.reverse ++ st.region).all Text.isBlank <;>
        simp [State.finish, State.release, State.close, hin, hblank]
    rw [hfinish]
    exact ended_of_empty rfl rfl rfl rfl rfl

theorem sayable_ending (framing : ToolFraming) (s : Setup) (region : Option (List Char)) :
    Sayable framing (Reading.ending s.call region) := by
  cases region with
  | none => exact sayable_nil framing
  | some collected =>
    rw [Reading.ending]
    split
    · exact sayable_nil framing
    · exact sayable_singleton (s.isText_call collected)

/-- What finishing says may be said. -/
theorem sayable_finish (h : Live s st text es) :
    Sayable s.dialect.grammar.toolFraming (s.events st.finish.2) := by
  rw [events_finish]
  exact (h.tracks.sayable_release s (marker_ne_nil s.dialect false)).append (sayable_ending _ s _)

theorem actAll_ended (h : Ended s st) (actions : List Action) : s.actAll st actions = (st, []) := by
  induction actions with
  | nil => rfl
  | cons a rest ih => simp only [Setup.actAll, h.still a, ih, List.append_nil]

/-- Every event has at most one mark. -/
theorem markCount_events (s : Setup) (outputs : List Output) :
    ∀ e ∈ s.events outputs, markCount e ≤ 1 := by
  intro e he
  obtain ⟨output, -, hevent⟩ := List.mem_filterMap.1 he
  cases output with
  | text cs => cases hevent; exact Nat.zero_le 1
  | control cs => cases hevent; exact Nat.le_refl 1
  | region cs =>
    obtain rfl : regionEvent (Prompt.callSyntax s.dialect) s.whitelist cs = e :=
      Option.some.inj hevent
    rw [regionEvent]
    split <;> exact Nat.le_refl 1
  | skipped token err => cases hevent
  | lossy count => cases hevent
  | dropped count err => cases hevent

/-! ### Any calls -/

/-- A classifier after calls, with the text since the last marker or control token and with all
events. -/
structure Reached (s : Setup) (actions : List Action) (st : State) (text : List Char)
    (es : List StreamEvent) : Prop where
  pending_length : st.pending.length ≤ 7
  pending_unread : st.pending ≠ [] → ∃ bytes,
    s.codec.detokenize st.pending st.context false = .ok bytes ∧ Utf8.decodeChars? bytes = none
  region : st.inside = false → st.region = []
  held_tokens : ∀ opening closing?,
    s.dialect.grammar.toolFraming = .tokens opening closing? → st.held = []
  held_markers : .finish ∉ actions → ∀ marker ∈ s.dialect.grammar.toolFraming.marker? st.inside,
    Markers.LongestOpening marker text st.held
  /-- Outside of a region, no other text is held back. -/
  said : .finish ∉ actions → st.inside = false → text = lastText es ++ st.held
  /-- In a region, none is lost. -/
  collected : .finish ∉ actions → st.inside = true → text <:+ st.region.reverse ++ st.held
  texts : Sayable s.dialect.grammar.toolFraming es
  marks : ∀ e ∈ es, markCount e ≤ 1
  ended : .finish ∈ actions → Ended s st

theorem actAll_cons (s : Setup) (st : State) (a : Action) (rest : List Action) :
    s.actAll st (a :: rest) =
      ((s.actAll (s.act st a).1 rest).1, (s.act st a).2 ++ (s.actAll (s.act st a).1 rest).2) := rfl

/-- A live state is as it should be. -/
theorem Live.reached (h : Live s st text es) (hes : ∀ e ∈ es, markCount e ≤ 1) :
    Reached s [] st text es where
  pending_length := Nat.le_of_lt_succ h.short
  pending_unread := h.unread
  region := h.tracks.region
  held_tokens opening closing? hframing := by
    refine h.tracks.held_tokens ?_
    rw [hframing]
    rfl
  held_markers _ marker hmarker := by
    rw [h.tracks.held marker hmarker]
    exact Markers.longestOpening_splitHeld (marker_ne_nil s.dialect st.inside marker hmarker) text
  said _ := h.tracks.said
  collected _ := h.tracks.collected
  texts := h.tracks.sayable
  marks := hes
  ended := nofun

/-- So is a finished one. -/
theorem Ended.reached (h : Ended s st) (hes : Sayable s.dialect.grammar.toolFraming es)
    (hmarks : ∀ e ∈ es, markCount e ≤ 1) {actions : List Action} (hfinish : .finish ∈ actions) :
    Reached s actions st text es where
  pending_length := by rw [h.pending]; exact Nat.zero_le 7
  pending_unread hne := absurd h.pending hne
  region _ := h.region
  held_tokens _ _ _ := h.held
  held_markers hnot := absurd hfinish hnot
  said hnot := absurd hfinish hnot
  collected hnot := absurd hfinish hnot
  texts := hes
  marks := hmarks
  ended _ := h

/-- A token more is no call to finish. -/
theorem Reached.push {actions : List Action} (h : Reached s actions st text es) (t : TokenId) :
    Reached s (.push t :: actions) st text es := by
  have hiff : .finish ∈ Action.push t :: actions ↔ .finish ∈ actions := by simp
  exact ⟨h.pending_length, h.pending_unread, h.region, h.held_tokens,
    fun hnot => h.held_markers (hiff.not.1 hnot), fun hnot => h.said (hiff.not.1 hnot),
    fun hnot => h.collected (hiff.not.1 hnot), h.texts, h.marks,
    fun hfinish => h.ended (hiff.1 hfinish)⟩

/-- Whatever is called from a live state, the result is as it should be. -/
theorem Live.actAll (hs : s.Framed) (h : Live s st text es) (hes : ∀ e ∈ es, markCount e ≤ 1)
    (actions : List Action) :
    Reached s actions (s.actAll st actions).1 (s.sinceAll st text actions)
      (es ++ s.events (s.actAll st actions).2) := by
  -- `Live` is the invariant up to the first call to finish; `Ended` takes over from there.
  induction actions generalizing st text es with
  | nil =>
    rw [Setup.actAll, Setup.events_nil, List.append_nil]
    exact h.reached hes
  | cons a rest ih =>
    have hmarks := List.forall_mem_append.2 ⟨hes, markCount_events s (s.act st a).2⟩
    rw [actAll_cons, Setup.events_append, ← List.append_assoc, Setup.sinceAll]
    cases a with
    | push t => exact (ih (push_live hs h t) hmarks).push t
    | finish =>
      have hended : Ended s (s.act st .finish).1 := ended_finish h
      simp only [actAll_ended hended, Setup.events_nil, List.append_nil]
      exact hended.reached (h.tracks.sayable.append (sayable_finish h)) hmarks
        (List.mem_cons_self ..)

end

/-- Any calls after a prompt, whatever the codec: few tokens are gathered and they are no text yet;
what is held back is the longest end of the text since the region changed last, or since a control
token, with which the next marker could start, and everything before it has been said; no text is
empty or has an opening marker in it; no event has two marks; and a call to finish is the end. -/
theorem actAll_reached {d : Dialect} {codec : TokenCodec} {w : Whitelist} {s : Setup}
    (hs : setup d codec w = .ok s) (prompt : List TokenId) (actions : List Action) :
    Reached s actions (s.actAll (.initial prompt) actions).1
      (s.sinceAll (.initial prompt) [] actions)
      (s.events (s.actAll (.initial prompt) actions).2) := by
  have hreached := (live_initial s prompt).actAll (setUp_of_setup hs).framed nofun actions
  rwa [List.nil_append] at hreached

/-- A vocabulary with a piece that ends in the middle of a marker. -/
def pieceVocabulary : Vocabulary :=
  (Vocabulary.ofSpecials Grammar.gemma.controlTokens).withPieces [Utf8.encode "a```tool"]

/-- A classifier for it. -/
def pieceClassifier : Setup :=
  ⟨pieceVocabulary.codec, .gemma, ⟨[]⟩, 3, none, none⟩

theorem actAll_reached_piece :
    setup .gemma pieceVocabulary.codec ⟨[]⟩ = .ok pieceClassifier ∧
      Reached pieceClassifier [.push 260]
        (pieceClassifier.actAll (.initial []) [.push 260]).1
        (pieceClassifier.sinceAll (.initial []) [] [.push 260])
        (pieceClassifier.events (pieceClassifier.actAll (.initial []) [.push 260]).2) ∧
      pieceClassifier.sinceAll (.initial []) [] [.push 260] = "a```tool".toList ∧
      (pieceClassifier.actAll (.initial []) [.push 260]).1.held = "```tool".toList := by
  have hsetup : setup .gemma pieceVocabulary.codec ⟨[]⟩ = .ok pieceClassifier := rfl
  exact ⟨hsetup, actAll_reached hsetup [] [.push 260], by decide +kernel, by decide +kernel⟩

end ChatRelay.Classifier
