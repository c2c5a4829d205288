import ChatRelay.Proofs.Stream.Gathering

/-!
# What is held back

Where regions are marked in the text, a text that ends in the start of a marker is not said up to
its end. What is held back is the longest end that the marker could start with (`LongestOpening`), of
all the text since the last marker and not just of the last piece of it; outside of a region,
everything before that has been said (`Tracks`). This survives any piece of text, however many
markers it completes (`feed_tracks`); and a marker is never said, not even in the end
(`Tracks.sayable_release`).
-/

namespace ChatRelay

namespace Markers

variable {m : Markers} {inside : Bool} {marker cs before after : List Char}

/-- The longest end of a text that could be the start of a marker. -/
structure LongestOpening (marker text held : List Char) : Prop where
  suffix : held <:+ text
  opens : Opens marker held
  longest : ∀ tail, tail <:+ text → Opens marker tail → tail.length ≤ held.length

theorem longestOpening_splitHeld (hm : marker ≠ []) (text : List Char) :
    LongestOpening marker text (splitHeld marker text).2 := by
  induction text with
  | nil =>
    refine ⟨List.suffix_rfl, ⟨List.nil_prefix, List.length_pos_iff.2 hm⟩, ?_⟩
    intro tail htail _
    exact htail.length_le
  | cons c cs ih =>
    by_cases ho : Opens marker (c :: cs)
    · rw [splitHeld_cons_of_opens ho]
      exact ⟨List.suffix_rfl, ho, fun tail htail _ => htail.length_le⟩
    · rw [splitHeld_cons_of_not_opens ho]
      refine ⟨ih.suffix.trans (List.suffix_cons c cs), ih.opens, ?_⟩
      intro tail htail hopens
      rcases List.suffix_cons_iff.1 htail with rfl | hshorter
      · exact absurd hopens ho
      · exact ih.longest tail hshorter hopens

/-- There is no marker before the first one. -/
theorem cut?_before (h : cut? marker cs = some (before, after)) (hm : marker ≠ []) :
    cut? marker before = none := by
  cases hb : cut? marker before with
  | none => rfl
  | some parts =>
    obtain ⟨b, a⟩ := parts
    obtain ⟨hcs, -⟩ := (cut?_eq_some_iff hm).1 h
    -- A marker within the first part is where the whole text is cut.
    have hlong := cut?_append_of_some hb (marker ++ after)
    rw [← List.append_assoc, ← hcs, h] at hlong
    obtain ⟨rfl, hafter⟩ := Prod.mk.inj (Option.some.inj hlong)
    have hshorter := length_lt_of_cut? hb
    have hlength := congrArg List.length ((cut?_eq_some_iff hm).1 hb).1
    have hpos := List.length_pos_iff.2 hm
    simp only [List.length_append] at hlength
    omega

/-- A text after its last marker. -/
def lastStretch (m : Markers) (inside : Bool) (cs : List Char) : List Char :=
  (m.stretches inside cs).2.getLastD (m.stretches inside cs).1

theorem lastStretch_of_none (h : cut? (m.next inside) cs = none) :
    m.lastStretch inside cs = cs := by
  rw [lastStretch, stretches_of_none h]
  rfl

theorem lastStretch_of_some (h : cut? (m.next inside) cs = some (before, after)) :
    m.lastStretch inside cs = m.lastStretch (!inside) after := by
  rw [lastStretch, stretches_of_some h, List.getLastD_cons]
  rfl

end Markers

/-- The marker that ends a stretch of text, where regions are marked in the text. -/
def ToolFraming.marker? : ToolFraming → Bool → Option (List Char)
  | .markers opening closing, inside => some (Markers.next ⟨opening.toList, closing.toList⟩ inside)
  | .tokens _ _, _ => none

/-- A text after its last marker. -/
def ToolFraming.lastStretch : ToolFraming → Bool → List Char → List Char
  | .markers opening closing, inside, cs =>
    Markers.lastStretch ⟨opening.toList, closing.toList⟩ inside cs
  | .tokens _ _, _, cs => cs

namespace Classifier

open StreamEvent

/-! ### The text said last -/

/-- The text said since the last event that is no text. -/
def lastText (es : List StreamEvent) : List Char :=
  joinedText (es.rtakeWhile isText)

theorem lastText_append_ofText (es : List StreamEvent) (cs : List Char) :
    lastText (es ++ ofText cs) = lastText es ++ cs := by
  cases cs with
  | nil => simp [ofText]
  | cons c cs =>
    have hsaid : ofText (c :: cs) = [.plain (String.ofList (c :: cs))] := rfl
    rw [hsaid, lastText, List.rtakeWhile_concat_pos _ _ _ (isText_plain _), joinedText,
      List.flatMap_append, List.flatMap_singleton, text_plain, String.toList_ofList]
    rfl

theorem lastText_concat {e : StreamEvent} (es : List StreamEvent) (he : e.isText = false) :
    lastText (es ++ [e]) = [] := by
  rw [lastText, List.rtakeWhile_concat_neg _ _ _ (by simp [he])]
  rfl

/-! ### Keeping track -/

/-- Events whose pieces of text may be said: they are not empty, and an opening marker is in none of
them. -/
def Sayable (framing : ToolFraming) (es : List StreamEvent) : Prop :=
  ∀ e ∈ es, e.isText = true →
    e.text.toList ≠ [] ∧ ∀ marker ∈ framing.marker? false, ¬ marker <:+: e.text.toList

/-- A state after a text since the last marker, and after events. -/
structure Tracks (framing : ToolFraming) (st : State) (since : List Char)
    (es : List StreamEvent) : Prop where
  uncut : ∀ marker ∈ framing.marker? st.inside, Markers.cut? marker since = none
  held : ∀ marker ∈ framing.marker? st.inside, st.held = (Markers.splitHeld marker since).2
  held_tokens : framing.marker? st.inside = none → st.held = []
  region : st.inside = false → st.region = []
  /-- Outside of a region, what is not held back has been said. -/
  said : st.inside = false → since = lastText es ++ st.held
  /-- In a region, it has been collected. -/
  collected : st.inside = true → since <:+ st.region.reverse ++ st.held
  sayable : Sayable framing es

section
variable {framing : ToolFraming} {es es' : List StreamEvent}

theorem sayable_nil (framing : ToolFraming) : Sayable framing [] := by
  intro e he
  cases he

theorem Sayable.append (h : Sayable framing es) (h' : Sayable framing es') :
    Sayable framing (es ++ es') :=
  List.forall_mem_append.2 ⟨h, h'⟩

theorem sayable_ofText {cs : List Char}
    (h : ∀ marker ∈ framing.marker? false, ¬ marker <:+: cs) : Sayable framing (ofText cs) := by
  cases cs with
  | nil => exact sayable_nil framing
  | cons c cs =>
    intro e he _
    obtain rfl := List.mem_singleton.1 he
    rw [text_plain, String.toList_ofList]
    exact ⟨List.cons_ne_nil c cs, h⟩

theorem sayable_singleton {e : StreamEvent} (he : e.isText = false) : Sayable framing [e] := by
  intro f hf htext
  obtain rfl := List.mem_singleton.1 hf
  rw [he] at htext
  cases htext

end

namespace State

section
variable {framing : ToolFraming} {m : Markers} {st : State} {settled text before after : List Char}
  {es : List StreamEvent}

/-- A state that is taking a text, of which the part before is settled. -/
structure Settled (m : Markers) (st : State) (settled text : List Char) (es : List StreamEvent) :
    Prop where
  cut : Markers.cut? (m.next st.inside) (settled ++ text) =
    (Markers.cut? (m.next st.inside) text).map (Markers.prepend settled)
  held : Markers.cut? (m.next st.inside) text = none →
    Markers.splitHeld (m.next st.inside) (settled ++ text) =
      Markers.prepend settled (Markers.splitHeld (m.next st.inside) text)
  region : st.inside = false → st.region = []
  said : st.inside = false → lastText es = settled
  collected : st.inside = true → settled <:+ st.region.reverse

/-- After a marker, nothing is settled yet. -/
theorem settled_nil (hregion : st.inside = false → st.region = [])
    (hsaid : st.inside = false → lastText es = []) (text : List Char) :
    Settled m st [] text es where
  cut := by cases hc : Markers.cut? (m.next st.inside) text <;> simp [hc]
  held _ := rfl
  region := hregion
  said := hsaid
  collected _ := List.nil_suffix

variable (hframing : ∀ inside, framing.marker? inside = some (m.next inside))
  (hm : m.opening ≠ [])

include hframing in
theorem eq_next {inside : Bool} {marker : List Char} (h : marker ∈ framing.marker? inside) :
    marker = m.next inside :=
  Option.some.inj (h.symm.trans (hframing inside))

include hframing hm in
/-- Text outside of regions may be said as long as it has no marker in it. -/
theorem sayable_of_uncut (h : Markers.cut? m.opening before = none) :
    Sayable framing (ofText before) := by
  refine sayable_ofText fun marker hmarker => ?_
  rw [eq_next hframing hmarker]
  exact (Markers.cut?_eq_none_iff hm).1 h

section
variable (h : Settled m st settled text es) (hnone : Markers.cut? (m.next st.inside) text = none)

include hframing h hnone

theorem Settled.uncut : ∀ marker ∈ framing.marker? st.inside,
    Markers.cut? marker (settled ++ text) = none := by
  intro marker hmarker
  rw [eq_next hframing hmarker, h.cut, hnone]
  rfl

theorem Settled.splitHeld : ∀ marker ∈ framing.marker? st.inside,
    (Markers.splitHeld (m.next st.inside) text).2 =
      (Markers.splitHeld marker (settled ++ text)).2 := by
  intro marker hmarker
  rw [eq_next hframing hmarker, h.held hnone]
  rfl

end

include hframing hm in
/-- Outside of a region, text without a marker is said up to what is held back. -/
theorem Settled.tracks_outside (h : Settled m st settled text es) (hes : Sayable framing es)
    (hin : st.inside = false) (hnone : Markers.cut? m.opening text = none) :
    Tracks framing { st with held := (Markers.splitHeld m.opening text).2 } (settled ++ text)
      (es ++ ofText (Markers.splitHeld m.opening text).1) := by
  have hnext : m.next st.inside = m.opening := by rw [hin]; rfl
  have huncut := h.uncut hframing (hnext ▸ hnone)
  have hheld := h.splitHeld hframing (hnext ▸ hnone)
  rw [hnext] at hheld
  have htext := Markers.splitHeld_append m.opening text
  have hsettled : Markers.cut? m.opening (Markers.splitHeld m.opening text).1 = none := by
    rw [Markers.cut?_eq_none_iff hm] at hnone ⊢
    exact fun hmarker => hnone (hmarker.trans ⟨[], _, by simpa using htext⟩)
  refine ⟨huncut, hheld, ?_, h.region, ?_, ?_,
    hes.append (sayable_of_uncut hframing hm hsettled)⟩
  · simp [hframing]
  · intro _
    rw [lastText_append_ofText, h.said hin, List.append_assoc, htext]
  · simp [hin]

include hframing in
/-- In a region, text without a marker is collected up to what is held back. -/
theorem Settled.tracks_inside (h : Settled m st settled text es) (hes : Sayable framing es)
    (hin : st.inside = true) (hnone : Markers.cut? m.closing text = none) :
    Tracks framing
      { st with
        region := (Markers.splitHeld m.closing text).1.reverse ++ st.region
        held := (Markers.splitHeld m.closing text).2 } (settled ++ text) es := by
  have hnext : m.next st.inside = m.closing := by rw [hin]; rfl
  have huncut := h.uncut hframing (hnext ▸ hnone)
  have hheld := h.splitHeld hframing (hnext ▸ hnone)
  rw [hnext] at hheld
  have htext := Markers.splitHeld_append m.closing text
  refine ⟨huncut, hheld, ?_, ?_, ?_, ?_, hes⟩
  · simp [hframing]
  · simp [hin]
  · simp [hin]
  · intro _
    obtain ⟨earlier, hearlier⟩ := h.collected hin
    refine ⟨earlier, ?_⟩
    rw [List.reverse_append, List.reverse_reverse, List.append_assoc, htext, ← hearlier,
      List.append_assoc]

include hframing hm in
/-- A text that is cut at its markers is tracked. -/
theorem takeMarked_tracks (s : Setup) (h : Settled m st settled text es)
    (hes : Sayable framing es) :
    Tracks framing (takeMarked m st text).1 (m.lastStretch st.inside (settled ++ text))
      (es ++ s.events (takeMarked m st text).2) := by
  -- As in `takeMarked_feeds`, every cut changes the side and leaves a shorter text; what was
  -- settled before the cut does not matter any more.
  induction hn : text.length using Nat.strong_induction_on generalizing st settled text es with
  | _ n ih =>
    have hwhole := h.cut
    cases hin : st.inside with
    | false =>
      rw [hin] at hwhole
      cases hcut : Markers.cut? m.opening text with
      | none =>
        rw [takeMarked_outside hin hcut, Setup.events_textOutput,
          Markers.lastStretch_of_none (hwhole.trans (congrArg (Option.map _) hcut))]
        exact h.tracks_outside hframing hm hes hin hcut
      | some parts =>
        obtain ⟨before, after⟩ := parts
        have hlen : after.length < n := hn ▸ Markers.length_lt_of_cut? hcut
        have hbefore := sayable_of_uncut hframing hm (Markers.cut?_before hcut hm)
        rw [takeMarked_opening hin hcut, Setup.events_append, Setup.events_textOutput,
          ← List.append_assoc,
          Markers.lastStretch_of_some (hwhole.trans (congrArg (Option.map _) hcut))]
        have hnext : Settled m { st with inside := true } [] after (es ++ ofText before) :=
          settled_nil (by simp) (by simp) after
        exact ih after.length hlen hnext (hes.append hbefore) rfl
    | true =>
      rw [hin] at hwhole
      cases hcut : Markers.cut? m.closing text with
      | none =>
        rw [takeMarked_inside hin hcut,
          Markers.lastStretch_of_none (hwhole.trans (congrArg (Option.map _) hcut)),
          Setup.events_nil, List.append_nil]
        exact h.tracks_inside hframing hes hin hcut
      | some parts =>
        obtain ⟨before, after⟩ := parts
        have hlen : after.length < n := hn ▸ Markers.length_lt_of_cut? hcut
        have hcall := s.isText_call (st.region.reverse ++ before)
        rw [takeMarked_closing hin hcut, Setup.events_region_cons, List.append_cons,
          Markers.lastStretch_of_some (hwhole.trans (congrArg (Option.map _) hcut))]
        have hnext : Settled m { st with inside := false, region := [] } [] after
            (es ++ [s.call (st.region.reverse ++ before)]) :=
          settled_nil (fun _ => rfl) (fun _ => lastText_concat es hcall) after
        exact ih after.length hlen hnext (hes.append (sayable_singleton hcall)) rfl

end

end State

section
open State

variable {framing : ToolFraming} {st : State} {since : List Char} {es : List StreamEvent}

/-- What is not held back is settled when more text comes. -/
theorem Tracks.settled {m : Markers}
    (hframing : ∀ inside, framing.marker? inside = some (m.next inside))
    (h : Tracks framing st since es) (more : List Char) :
    ∃ settled, settled ++ st.held = since ∧ Settled m st settled (st.held ++ more) es := by
  have huncut := h.uncut _ (hframing st.inside)
  have hheld := h.held _ (hframing st.inside)
  have hsplit := Markers.splitHeld_append (m.next st.inside) since
  have hcut := Markers.cut?_append_of_none huncut more
  have hmore := Markers.splitHeld_append_of_none huncut more
  rw [← hheld] at hsplit hcut hmore
  set settled := (Markers.splitHeld (m.next st.inside) since).1
  refine ⟨settled, hsplit, ?_, ?_, h.region, ?_, ?_⟩
  · rw [← List.append_assoc, hsplit]
    exact hcut
  · intro _
    rw [← List.append_assoc, hsplit]
    exact hmore
  · intro hout
    exact List.append_cancel_right ((h.said hout).symm.trans hsplit.symm)
  · intro hin
    have hcollected := h.collected hin
    rw [← hsplit] at hcollected
    exact List.suffix_append_self_iff.1 hcollected

/-- Where regions are framed by tokens, text is said or collected as it comes. -/
theorem feed_tracks_tokens (s : Setup) {opening : String} {closing? : Option String}
    (h : Tracks (.tokens opening closing?) st since es) (cs : List Char) :
    Tracks (.tokens opening closing?) (st.feed (.tokens opening closing?) cs).1 (since ++ cs)
      (es ++ s.events (st.feed (.tokens opening closing?) cs).2) := by
  have hheld := h.held_tokens rfl
  have hunmarked : ∀ {P : List Char → Prop} (inside : Bool),
      ∀ marker ∈ ToolFraming.marker? (.tokens opening closing?) inside, P marker := by
    intro P inside marker hmarker
    cases hmarker
  cases hin : st.inside with
  | false =>
    have hsince := h.said hin
    rw [hheld, List.append_nil] at hsince
    have hfeed : st.feed (.tokens opening closing?) cs = (st, textOutput cs) := by
      simp [feed, hin]
    rw [hfeed, Setup.events_textOutput]
    refine ⟨hunmarked _, hunmarked _, fun _ => hheld, h.region, ?_, ?_,
      h.sayable.append (sayable_ofText (hunmarked _))⟩
    · intro _
      rw [lastText_append_ofText, hheld, List.append_nil, hsince]
    · simp [hin]
  | true =>
    have hsince := h.collected hin
    rw [hheld, List.append_nil] at hsince
    have hfeed : st.feed (.tokens opening closing?) cs =
        ({ st with region := cs.reverse ++ st.region }, []) := by
      simp [feed, hin]
    rw [hfeed, Setup.events_nil, List.append_nil]
    refine ⟨hunmarked _, hunmarked _, fun _ => hheld, ?_, ?_, ?_, h.sayable⟩
    · simp [hin]
    · simp [hin]
    · intro _
      show since ++ cs <:+ (cs.reverse ++ st.region).reverse ++ st.held
      rw [hheld, List.append_nil, List.reverse_append, List.reverse_reverse]
      exact List.suffix_append_self_iff.2 hsince

/-- More text is tracked, after its last marker if it completes any. -/
theorem feed_tracks (s : Setup) (hm : ∀ marker ∈ framing.marker? false, marker ≠ [])
    (h : Tracks framing st since es) (cs : List Char) :
    Tracks framing (st.feed framing cs).1 (framing.lastStretch st.inside (since ++ cs))
      (es ++ s.events (st.feed framing cs).2) := by
  cases framing with
  | markers opening closing =>
    have hframing : ∀ inside, ToolFraming.marker? (.markers opening closing) inside =
        some (Markers.next ⟨opening.toList, closing.toList⟩ inside) := fun _ => rfl
    obtain ⟨settled, hsince, hsettled⟩ := h.settled hframing cs
    rw [← hsince, List.append_assoc]
    exact takeMarked_tracks hframing (hm _ rfl) s hsettled h.sayable
  | tokens opening closing? => exact feed_tracks_tokens s h cs

/-- A state in which nothing is held back tracks the empty text. -/
theorem tracks_nil (hheld : st.held = []) (hregion : st.inside = false → st.region = [])
    (hsaid : st.inside = false → lastText es = []) (hes : Sayable framing es) :
    Tracks framing st [] es where
  uncut _ _ := rfl
  held _ _ := hheld
  held_tokens _ := hheld
  region := hregion
  said hout := by rw [hsaid hout, hheld]; rfl
  collected _ := List.nil_suffix
  sayable := hes

/-- What is held back may be said. -/
theorem Tracks.sayable_release (s : Setup) (hm : ∀ marker ∈ framing.marker? false, marker ≠ [])
    (h : Tracks framing st since es) : Sayable framing (s.events st.release.2) := by
  rw [outputs_release]
  cases hin : st.inside with
  | true => exact sayable_nil framing
  | false =>
    rw [if_neg Bool.false_ne_true, Setup.events_textOutput]
    refine sayable_ofText fun marker hmarker => ?_
    rw [h.held marker (hin ▸ hmarker), ← Markers.cut?_eq_none_iff (hm marker hmarker)]
    exact (Markers.splitHeld_held marker since).1

end

end Classifier

end ChatRelay
