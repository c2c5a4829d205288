import ChatRelay.Proofs.Stream.Feeding
import ChatRelay.Proofs.Stream.SettingUp

/-!
# Classifying token by token is reading the reply

The classifier sees one token at a time; the reader of a reply sees all of them. In a state that
`Follows` the run it is in, what the reader would say of the rest is `remaining`: it depends on what
the classifier has gathered and holds back. Each token turns this into the events of the classifier
and what then remains, be it a text token (`push_text`), a control token (`push_control`) or the end
of the turn (`push_endOfTurn`); and at the end of the reply nothing remains but `finish`
(`events_finish`). So a whole run of the classifier says what the reader says
(`pushAll_follows`).
-/

namespace ChatRelay.Classifier

open Reading StreamEvent State

/-! ### The dialect's own tokens -/

/-- A classifier set up for a vocabulary: it knows its codec and the tokens the dialect uses. -/
structure Setup.Knows (s : Setup) (v : Vocabulary) : Prop where
  codec : s.codec = v.codec
  endOfTurn : ∀ t, t = s.endOfTurn ↔ v.isNamed s.dialect.grammar.endOfTurn t
  toolOpen : ∀ t, some t = s.toolOpen ↔
    s.dialect.grammar.toolFraming.opening?.any (v.isNamed · t)
  toolClose : ∀ t, some t = s.toolClose ↔
    s.dialect.grammar.toolFraming.closing?.any (v.isNamed · t)

/-- The id of a control token of the vocabulary. -/
theorem specialTokenId_codec {v : Vocabulary} {text : String} (h : text ∈ v.specials) :
    ∃ id, v.codec.specialTokenId text = .ok id ∧ ∀ t, t = id ↔ v.isNamed text t := by
  obtain ⟨i, hi⟩ := Vocabulary.exists_specialIndex? h
  refine ⟨(i : Int), ?_, ?_⟩
  · simp [Vocabulary.codec, hi]
  · intro t
    simp [Vocabulary.isNamed, hi]

/-- The tokens that mark the end of a turn and the regions are among a dialect's control tokens. -/
theorem framing_controlTokens (d : Dialect) :
    d.grammar.endOfTurn ∈ d.grammar.controlTokens ∧
      (∀ text ∈ d.grammar.toolFraming.opening?, text ∈ d.grammar.controlTokens) ∧
      ∀ text ∈ d.grammar.toolFraming.closing?, text ∈ d.grammar.controlTokens := by
  cases d <;> decide

/-- A classifier can be set up for every vocabulary with the dialect's control tokens. -/
theorem setup_knows {d : Dialect} {v : Vocabulary} (w : Whitelist)
    (hv : d.grammar.controlTokens ⊆ v.specials) :
    ∃ s, setup d v.codec w = .ok s ∧ s.dialect = d ∧ s.whitelist = w ∧ s.Knows v := by
  obtain ⟨hend, hopen, hclose⟩ := framing_controlTokens d
  obtain ⟨e, he, hisEnd⟩ := specialTokenId_codec (hv hend)
  cases hf : d.grammar.toolFraming with
  | markers opening closing =>
    refine ⟨⟨v.codec, d, w, e, none, none⟩, ?_, rfl, rfl, ⟨rfl, hisEnd, ?_, ?_⟩⟩
    · simp [setup, hf, he, bind, Except.bind]
    · simp [hf, ToolFraming.opening?]
    · simp [hf, ToolFraming.closing?]
  | tokens opening closing? =>
    rw [hf] at hopen hclose
    obtain ⟨o, ho, hisOpen⟩ := specialTokenId_codec (hv (hopen opening rfl))
    cases closing? with
    | none =>
      refine ⟨⟨v.codec, d, w, e, some o, none⟩, ?_, rfl, rfl, ⟨rfl, hisEnd, ?_, ?_⟩⟩
      · simp [setup, hf, he, ho, bind, Except.bind]
      · simpa [hf, ToolFraming.opening?] using hisOpen
      · simp [hf, ToolFraming.closing?]
    | some closing =>
      obtain ⟨c, hc, hisClose⟩ := specialTokenId_codec (hv (hclose closing rfl))
      refine ⟨⟨v.codec, d, w, e, some o, some c⟩, ?_, rfl, rfl, ⟨rfl, hisEnd, ?_, ?_⟩⟩
      · simp [setup, hf, he, ho, hc, bind, Except.bind]
      · simpa [hf, ToolFraming.opening?] using hisOpen
      · simpa [hf, ToolFraming.closing?] using hisClose

/-! ### Control tokens -/

section
variable {s : Setup} {v : Vocabulary} {st : State} {t : TokenId} {c : Control}

/-- A text token is none of the dialect's own and renders alike. -/
theorem control?_eq_none {g : Grammar} (h : control? g v t = none) :
    v.isNamed g.endOfTurn t = false ∧ g.toolFraming.opening?.any (v.isNamed · t) = false ∧
      g.toolFraming.closing?.any (v.isNamed · t) = false ∧ v.rendersAlike t = true := by
  unfold control? at h
  split at h
  · cases h
  split at h
  · cases h
  split at h
  · cases h
  split at h
  · simp_all
  · cases h

/-- What the reader takes for a control token is one of the vocabulary, and the classifier takes it
for one too. -/
theorem entry_of_control? {g : Grammar} (h : control? g v t = some c) :
    ∃ text shown, v.entry t = .ok (.control text shown) := by
  have named : ∀ name? : Option String, name?.any (v.isNamed · t) = true →
      ∃ text shown, v.entry t = .ok (.control text shown) := by
    intro name? hname
    cases name? with
    | none => simp at hname
    | some name =>
      obtain ⟨shown, he⟩ := Vocabulary.entry_of_isNamed hname
      exact ⟨name, shown, he⟩
  unfold control? at h
  split at h
  · next hend => exact named (some g.endOfTurn) hend
  split at h
  · next hopen => exact named _ hopen
  split at h
  · next hclose => exact named _ hclose
  split at h
  · cases h
  · next halike => exact Vocabulary.entry_of_not_rendersAlike (by simpa using halike)

theorem renderings_eq (hcodec : s.codec = v.codec) {plain shown : List UInt8}
    (hplain : v.render false [t] = .ok plain) (hshown : v.render true [t] = .ok shown) :
    s.renderings st t = .ok (plain, shown) := by
  simp [Setup.renderings, hcodec, Vocabulary.codec, hplain, hshown, Except.mapError, bind,
    Except.bind]

/-- Whether the reader takes a token for a control token is whether the classifier does. -/
theorem isFraming_or_ne_iff (hs : s.Knows v) {plain shown : List UInt8}
    (hplain : v.render false [t] = .ok plain) (hshown : v.render true [t] = .ok shown) :
    (s.isFraming t ∨ plain ≠ shown) ↔ (control? s.dialect.grammar v t).isSome := by
  have halike : v.rendersAlike t = true ↔ plain = shown := by
    simp [Vocabulary.rendersAlike, hplain, hshown]
  have hframing : s.isFraming t = true ↔
      v.isNamed s.dialect.grammar.endOfTurn t = true ∨
        s.dialect.grammar.toolFraming.opening?.any (v.isNamed · t) = true ∨
          s.dialect.grammar.toolFraming.closing?.any (v.isNamed · t) = true := by
    rw [isFraming_iff, Setup.framingIds, List.mem_cons, List.mem_append, Option.mem_toList,
      Option.mem_toList, @eq_comm _ s.toolOpen, @eq_comm _ s.toolClose, hs.endOfTurn, hs.toolOpen,
      hs.toolClose]
  rw [hframing]
  unfold control?
  split
  · simp_all
  split
  · simp_all
  split
  · simp_all
  split
  · simp_all
  · simp_all

theorem push_text_eq (hs : s.Knows v) (hlive : st.finished = false)
    (h : control? s.dialect.grammar v t = none) {bytes : List UInt8}
    (hb : v.render false [t] = .ok bytes) : s.push st t = s.takeText st t bytes := by
  have halike : v.render true [t] = .ok bytes := by
    rw [← hb]
    simpa [Vocabulary.rendersAlike, eq_comm] using (control?_eq_none h).2.2.2
  have hnot := (isFraming_or_ne_iff hs hb halike).not.2 (by simp [h])
  rw [Setup.push, if_neg (by simp [hlive]), renderings_eq hs.codec hb halike]
  exact if_neg hnot

/-- A control token counts at once where nothing is gathered. -/
theorem push_control_eq (hs : s.Knows v) (hlive : st.finished = false) (hpending : st.pending = [])
    (h : control? s.dialect.grammar v t = some c) :
    s.push st t =
      s.takeControl { st with context := t :: st.context } t (Utf8.encode (v.spelling t)) := by
  obtain ⟨text, shown, he⟩ := entry_of_control? h
  have hplain := Vocabulary.render_single he false
  have hshown := Vocabulary.render_single he true
  have hspelling : v.spelling t = text := by simp [Vocabulary.spelling, he]
  have hcontrol := (isFraming_or_ne_iff hs hplain hshown).2 (by simp [h])
  have hflush : s.flush st = (st, []) := by simp [Setup.flush, hpending]
  rw [Setup.push, if_neg (by simp [hlive]), renderings_eq hs.codec hplain hshown]
  simp only [if_pos hcontrol, hflush, List.nil_append, hspelling]
  rfl

/-- A state whose next text is not bound to earlier text. -/
theorem fits_of_held_nil {framing : ToolFraming} (hheld : st.held = [])
    (hregion : st.inside = false → st.region = []) : st.Fits framing := by
  cases framing with
  | markers opening closing => exact ⟨by rw [hheld]; rfl, hregion⟩
  | tokens opening closing => exact ⟨hheld, hregion⟩

theorem State.Fits.region_nil {framing : ToolFraming} (h : st.Fits framing)
    (hin : st.inside = false) : st.region = [] := by
  cases framing with
  | markers opening closing => exact h.region hin
  | tokens opening closing => exact h.2 hin

/-- What taking a control token into account comes to: what is held back is given up, and the token
is heeded. -/
structure Heeds (s : Setup) (v : Vocabulary) (st : State) (c : Control)
    (result : State × List Output) : Prop where
  held : result.1.held = []
  outside : result.1.inside = false → result.1.region = []
  tokens : SameTokens st result.1
  region : result.1.openRegion = (heed v s.call st.release.1.openRegion c).1
  said : s.events result.2 =
    s.events st.release.2 ++ (heed v s.call st.release.1.openRegion c).2

/-- Which tokens are read and gathered has no bearing on text. -/
theorem State.Fits.setTokens {framing : ToolFraming} (h : st.Fits framing)
    (context pending : List TokenId) : State.Fits framing { st with context, pending } := by
  cases framing with
  | markers opening closing => exact ⟨h.held, h.region⟩
  | tokens opening closing => exact h

theorem release_of_held_nil (hheld : st.held = []) : st.release = (st, []) := by
  obtain ⟨context, inside, held, region, pending, finished⟩ := st
  obtain rfl : held = [] := hheld
  cases inside <;> rfl

theorem openRegion_release (st : State) :
    st.release.1.openRegion =
      if st.inside then some (st.region.reverse ++ st.held) else none := by
  cases hin : st.inside <;> simp [release, openRegion, hin]

theorem outputs_release (st : State) :
    st.release.2 = if st.inside then [] else textOutput st.held := by
  cases hin : st.inside <;> simp [release, hin]

theorem release_frame (st : State) :
    st.release.1.held = [] ∧ st.release.1.inside = st.inside ∧ SameTokens st st.release.1 ∧
      (st.inside = false → st.release.1.region = st.region) := by
  cases hin : st.inside <;> simp [release, hin, SameTokens.mk]

/-- A control token without meaning to the dialect is said after what is held back. -/
theorem release_control_heeds (hregion : st.inside = false → st.region = [])
    (hheed : heed v s.call st.release.1.openRegion c =
      (st.release.1.openRegion, [.control (v.spelling t)])) :
    Heeds s v st c
      (st.release.1,
        st.release.2 ++ [.control (Utf8.decodeLossy (Utf8.encode (v.spelling t)))]) := by
  obtain ⟨hheld, hinside, htokens, hsame⟩ := release_frame st
  refine ⟨hheld, ?_, htokens, by rw [hheed], ?_⟩
  · intro hin
    rw [hinside] at hin
    rw [hsame hin, hregion hin]
  · rw [hheed, Setup.events_append, Setup.events_control, Utf8.decodeLossy_encode,
      String.ofList_toList]

/-- What is a control token to the reader is heeded by the classifier as by the reader. -/
theorem takeControl_heeds (hs : s.Knows v) (hfits : st.Fits s.dialect.grammar.toolFraming)
    (h : control? s.dialect.grammar v t = some c) (hc : c ≠ .endOfTurn) :
    Heeds s v st c (s.takeControl st t (Utf8.encode (v.spelling t))) := by
  have hregion := hfits.region_nil
  -- The classifier asks in the order in which the reader does.
  unfold control? at h
  split at h
  · exact absurd (Option.some.inj h).symm hc
  next hend =>
  have hend' : t ≠ s.endOfTurn := fun he => hend ((hs.endOfTurn t).1 he)
  split at h
  · next hopen =>
    obtain rfl : Control.opening = c := Option.some.inj h
    -- Only a dialect with such tokens gets here, and it holds nothing back.
    have hheld : st.held = [] := by
      cases hf : s.dialect.grammar.toolFraming with
      | markers opening closing => simp [hf, ToolFraming.opening?] at hopen
      | tokens opening closing => rw [hf] at hfits; exact hfits.1
    rw [Setup.takeControl, if_neg hend', if_pos ((hs.toolOpen t).2 hopen)]
    refine ⟨hheld, by simp, ⟨rfl, rfl⟩, ?_, ?_⟩
    · rw [release_of_held_nil hheld]
      cases hin : st.inside with
      | false => simp [heed, openRegion, hin, hregion hin]
      | true => simp [heed, openRegion, hin]
    · rw [release_of_held_nil hheld]
      rfl
  next hopen =>
  have hopen' : some t ≠ s.toolOpen := fun ho => hopen ((hs.toolOpen t).1 ho)
  split at h
  · next hclose =>
    obtain rfl : Control.closing t = c := Option.some.inj h
    have hheld : st.held = [] := by
      cases hf : s.dialect.grammar.toolFraming with
      | markers opening closing => simp [hf, ToolFraming.closing?] at hclose
      | tokens opening closing => rw [hf] at hfits; exact hfits.1
    cases hin : st.inside with
    | true =>
      rw [Setup.takeControl, if_neg hend', if_neg hopen',
        if_pos ⟨(hs.toolClose t).2 hclose, hin⟩]
      refine ⟨hheld, fun _ => rfl, ⟨rfl, rfl⟩, ?_, ?_⟩
      · rw [release_of_held_nil hheld, openRegion_inside hin]
        rfl
      · rw [release_of_held_nil hheld, openRegion_inside hin]
        rfl
    | false =>
      rw [Setup.takeControl, if_neg hend', if_neg hopen', if_neg (by simp [hin])]
      refine release_control_heeds hregion ?_
      rw [release_of_held_nil hheld, openRegion_outside hin]
      rfl
  next hclose =>
  have hclose' : some t ≠ s.toolClose := fun hcl => hclose ((hs.toolClose t).1 hcl)
  split at h
  · cases h
  · obtain rfl : Control.other t = c := Option.some.inj h
    rw [Setup.takeControl, if_neg hend', if_neg hopen', if_neg (by simp [hclose'])]
    exact release_control_heeds hregion rfl

theorem takeControl_endOfTurn (hs : s.Knows v)
    (h : control? s.dialect.grammar v t = some .endOfTurn) (shown : List UInt8) :
    s.takeControl st t shown = ({ st with finished := true }, []) := by
  refine if_pos ((hs.endOfTurn t).2 ?_)
  unfold control? at h
  split at h
  · assumption
  split at h
  · cases h
  split at h
  · cases h
  split at h
  · cases h
  · cases h

/-! ### Text tokens -/

theorem detokenize_eq (hs : s.Knows v) {ts context : List TokenId} {bytes : List UInt8}
    (hb : v.render false ts = .ok bytes) : s.codec.detokenize ts context false = .ok bytes := by
  simp [hs.codec, Vocabulary.codec, hb, Except.mapError]

/-- Once what is gathered is text, it is fed. -/
theorem takeText_of_text (hs : s.Knows v) {bytes all : List UInt8} {cs : List Char}
    (hb : v.render false [t] = .ok bytes) (hall : v.render false (st.pending ++ [t]) = .ok all)
    (htext : Utf8.decodeChars? all = some cs) :
    s.takeText st t bytes =
      { st with context := (st.pending ++ [t]).reverse ++ st.context, pending := [] }.feed
        s.dialect.grammar.toolFraming cs := by
  obtain ⟨context, inside, held, region, pending, finished⟩ := st
  cases pending with
  | nil =>
    obtain rfl : bytes = all := Except.ok.inj (hb.symm.trans hall)
    simp [Setup.takeText, htext]
  | cons p ps =>
    rw [Setup.takeText, if_neg (by simp), Setup.gather, detokenize_eq hs hall]
    simp only [htext]

/-- As long as what is gathered is no text and not too much, gathering goes on. -/
theorem takeText_of_cut (hs : s.Knows v) {bytes all : List UInt8}
    (hb : v.render false [t] = .ok bytes) (hall : v.render false (st.pending ++ [t]) = .ok all)
    (htext : Utf8.decodeChars? all = none) (hlen : (st.pending ++ [t]).length < gatherLimit) :
    s.takeText st t bytes = ({ st with pending := st.pending ++ [t] }, []) := by
  obtain ⟨context, inside, held, region, pending, finished⟩ := st
  cases pending with
  | nil =>
    obtain rfl : bytes = all := Except.ok.inj (hb.symm.trans hall)
    simp [Setup.takeText, htext]
  | cons p ps =>
    rw [Setup.takeText, if_neg (by simp), Setup.gather, detokenize_eq hs hall]
    simp only [htext, if_neg (Nat.not_le.2 hlen)]

/-! ### Following a run -/

/-- A state in the middle of a reply, with the rest of the run that it is in. -/
structure Follows (s : Setup) (v : Vocabulary) (st : State) (run : List TokenId) : Prop where
  live : st.finished = false
  fits : st.Fits s.dialect.grammar.toolFraming
  readable : v.Readable (st.pending ++ run)
  unread : v.Unread st.pending

/-- What the reader says of the rest of a reply: of what is held back, of what is gathered, of the
rest of the run, and of what comes after it. -/
def remaining (s : Setup) (v : Vocabulary) (st : State) (run : List TokenId)
    (others : List (Control × List TokenId)) : List StreamEvent :=
  events s.dialect.grammar v s.call st.openRegion (st.held ++ v.textOf (st.pending ++ run)) others

/-- Where a run ends, nothing is gathered. -/
theorem Follows.pending_nil (h : Follows s v st []) : st.pending = [] := by
  have := h.readable.isText
  rw [List.append_nil] at this
  exact h.unread.eq_nil this

/-- At the end of a run, what is held back is given up. -/
theorem remaining_nil (h : Follows s v st []) (others : List (Control × List TokenId)) :
    remaining s v st [] others =
      s.events st.release.2 ++
        eventsAfter s.dialect.grammar v s.call st.release.1.openRegion others := by
  have htext : st.held ++ v.textOf (st.pending ++ []) = st.held := by simp [h.pending_nil]
  rw [remaining, htext, events_eq, release_reads s h.fits]

/-- A text token leaves to be said what it does not say itself. -/
theorem push_text (hs : s.Knows v) {run : List TokenId} (h : Follows s v st (t :: run))
    (hc : control? s.dialect.grammar v t = none) :
    Follows s v (s.push st t).1 run ∧
      ∀ others, joinText (remaining s v st (t :: run) others) =
        joinText (s.events (s.push st t).2 ++ remaining s v (s.push st t).1 run others) := by
  have hsplit : st.pending ++ t :: run = st.pending ++ [t] ++ run := by simp
  have hreadable := h.readable
  rw [hsplit] at hreadable
  obtain ⟨⟨bytes, hb⟩, ⟨all, hall⟩⟩ := hreadable.renders
  have htextOf := Vocabulary.text?_of_render hall
  rw [push_text_eq hs h.live hc hb]
  -- With this token, either the gathered bytes are text at last, or a character is still cut.
  cases htext : v.text? (st.pending ++ [t]) with
  | some cs =>
    rw [takeText_of_text hs hb hall (htextOf.symm.trans htext)]
    have hrest := hreadable.drop htext
    have hfeeds := feed_feeds s (h.fits.setTokens ((st.pending ++ [t]).reverse ++ st.context) []) cs
    refine ⟨⟨hfeeds.tokens.finished.trans h.live, hfeeds.fits, ?_, ?_⟩, ?_⟩
    · rw [hfeeds.tokens.pending]
      exact hrest
    · rw [hfeeds.tokens.pending]
      exact Vocabulary.unread_nil
    · intro others
      have hwhole : st.held ++ v.textOf (st.pending ++ t :: run) =
          st.held ++ cs ++ v.textOf run := by
        rw [hsplit, Vocabulary.textOf_append htext hrest.isText, List.append_assoc]
      rw [remaining, remaining, hwhole, hfeeds.tokens.pending]
      exact events_congr (hfeeds.continues.region _) (hfeeds.continues.events _)
  | none =>
    have hunread := h.unread.concat htext
    rw [takeText_of_cut hs hb hall (htextOf.symm.trans htext) (hreadable.length_lt hunread)]
    refine ⟨⟨h.live, h.fits.setTokens _ _, hreadable, hunread⟩, ?_⟩
    intro others
    rw [remaining, remaining, hsplit]
    rfl

/-- A control token says itself what it means, after what is held back. -/
theorem push_control (hs : s.Knows v) {run : List TokenId} (h : Follows s v st [])
    (hrun : v.Readable run) (hc : control? s.dialect.grammar v t = some c) (hne : c ≠ .endOfTurn) :
    Follows s v (s.push st t).1 run ∧
      ∀ others, remaining s v st [] ((c, run) :: others) =
        s.events (s.push st t).2 ++ remaining s v (s.push st t).1 run others := by
  have hpending := h.pending_nil
  rw [push_control_eq hs h.live hpending hc]
  set st₁ : State := { st with context := t :: st.context } with hst₁
  have hfollows : Follows s v st₁ [] :=
    ⟨h.live, h.fits.setTokens (t :: st.context) st.pending, h.readable, h.unread⟩
  have hheeds := takeControl_heeds hs hfollows.fits hc hne
  have hnone := hheeds.tokens.pending.trans hpending
  have hlive := hheeds.tokens.finished.trans h.live
  refine ⟨⟨hlive, fits_of_held_nil hheeds.held hheeds.outside, ?_, ?_⟩, ?_⟩
  · rw [hnone]
    exact hrun
  · rw [hnone]
    exact Vocabulary.unread_nil
  · intro others
    calc
      remaining s v st [] ((c, run) :: others)
        = s.events st₁.release.2 ++
            eventsAfter s.dialect.grammar v s.call st₁.release.1.openRegion ((c, run) :: others) :=
          remaining_nil hfollows _
      _ = _ := by
          rw [eventsAfter_cons run hne, ← List.append_assoc, ← hheeds.said, ← hheeds.region,
            remaining, hheeds.held, hnone]
          rfl

/-- The end of the turn says nothing itself, and nothing is said after it but the end. -/
theorem push_endOfTurn (hs : s.Knows v) (h : Follows s v st [])
    (hc : control? s.dialect.grammar v t = some .endOfTurn) :
    s.push st t = ({ st with context := t :: st.context, finished := true }, []) := by
  rw [push_control_eq hs h.live h.pending_nil hc, takeControl_endOfTurn hs hc]

/-- At the end of a reply, what is held back is given up and the region ends. -/
theorem events_finish (s : Setup) (st : State) :
    s.events st.finish.2 = s.events st.release.2 ++ ending s.call st.release.1.openRegion := by
  cases hin : st.inside with
  | false => simp [finish, release, hin, openRegion, ending]
  | true =>
    have hall : (st.held.reverse ++ st.region).all Text.isBlank =
        (st.region.reverse ++ st.held).all Text.isBlank := by
      rw [← List.all_reverse, List.reverse_append, List.reverse_reverse]
    rw [openRegion_release, outputs_release, hin, if_pos rfl, if_pos rfl, ending, ← hall]
    cases hblank : (st.held.reverse ++ st.region).all Text.isBlank with
    | true => simp [finish, release, hin, hblank]
    | false => simp [finish, release, close, hin, hblank]

theorem pushAll_finished (s : Setup) {st : State} (h : st.finished = true) (ts : List TokenId) :
    s.pushAll st ts = (st, []) := by
  induction ts with
  | nil => rfl
  | cons t ts ih =>
    have hpush : s.push st t = (st, []) := by simp [Setup.push, h]
    rw [Setup.pushAll, hpush]
    simp only [ih, List.nil_append]

end

/-! ### Following a reply -/

theorem pushAll_cons (s : Setup) (st : State) (t : TokenId) (ts : List TokenId) :
    s.pushAll st (t :: ts) =
      ((s.pushAll (s.push st t).1 ts).1, (s.push st t).2 ++ (s.pushAll (s.push st t).1 ts).2) := rfl

/-- From a state in the middle of a reply, what the classifier says of the rest is what the reader
says of it. -/
theorem pushAll_follows {s : Setup} {v : Vocabulary} (hs : s.Knows v) (ts : List TokenId)
    {st : State} (h : Follows s v st (runs s.dialect.grammar v ts).1)
    (hothers : ∀ p ∈ (runs s.dialect.grammar v ts).2, v.Readable p.2) :
    joinText (s.events (s.pushAll st ts).2 ++ s.events (s.pushAll st ts).1.finish.2) =
      joinText (remaining s v st (runs s.dialect.grammar v ts).1
        (runs s.dialect.grammar v ts).2) := by
  -- `Follows` is the invariant: the run it names loses its first token at every text token, and is
  -- replaced by the next run at a control token.
  induction ts generalizing st with
  | nil =>
    have hsaid := remaining_nil h []
    rw [Setup.pushAll, events_finish]
    exact congrArg joinText hsaid.symm
  | cons t ts ih =>
    rw [pushAll_cons]
    cases hc : control? s.dialect.grammar v t with
    | none =>
      have hruns : runs s.dialect.grammar v (t :: ts) =
          (t :: (runs s.dialect.grammar v ts).1, (runs s.dialect.grammar v ts).2) := by
        simp [runs, hc]
      rw [hruns] at h hothers ⊢
      obtain ⟨hnext, hsaid⟩ := push_text hs h hc
      rw [hsaid, Setup.events_append, List.append_assoc]
      exact joinText_append_congr rfl (ih hnext hothers)
    | some c =>
      have hruns : runs s.dialect.grammar v (t :: ts) =
          ([], (c, (runs s.dialect.grammar v ts).1) :: (runs s.dialect.grammar v ts).2) := by
        simp [runs, hc]
      rw [hruns] at h hothers ⊢
      by_cases hend : c = .endOfTurn
      · subst hend
        rw [push_endOfTurn hs h hc, pushAll_finished s rfl, remaining_nil h, events_finish,
          openRegion_release, openRegion_release, outputs_release, outputs_release]
        rfl
      · obtain ⟨hrun, hrest⟩ := List.forall_mem_cons.1 hothers
        obtain ⟨hnext, hsaid⟩ := push_control hs h hrun hc hend
        rw [hsaid, Setup.events_append, List.append_assoc]
        exact joinText_append_congr rfl (ih hnext hrest)

end ChatRelay.Classifier
