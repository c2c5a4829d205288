import ChatRelay.Proofs.Stream.ByteRuns
import ChatRelay.Proofs.Stream.Following
import ChatRelay.Proofs.Text.Cuts

/-!
# Bytes that come one by one

Where regions are framed by tokens, bytes that come one by one are gathered until they are text or
until there are too many of them, and each piece is then said by itself; what is still gathered at
the end is gone (`Gathers`). So a byte that is ill-formed may cost text after all: a character that
the limit cuts in two, and characters that come at the very end. Everything else is said
(`classify_byteTokens`).
-/

namespace ChatRelay.Classifier

open Utf8 StreamEvent State

/-! ### Gathering -/

/-- Bytes that are gathered no longer: they are text, or they are too many. -/
def Settles (bytes : List UInt8) : Prop :=
  (decodeChars? bytes).isSome = true ∨ gatherLimit ≤ bytes.length

/-- Bytes that are still gathered. -/
def Unsettled (bytes : List UInt8) : Prop :=
  ∀ start, start <+: bytes → start ≠ [] → ¬ Settles start

/-- Bytes are gathered in pieces, each of which settles with its last byte, and a rest. -/
inductive Gathers : List UInt8 → List (List UInt8) → List UInt8 → Prop
  | rest {bytes : List UInt8} (hbytes : Unsettled bytes) : Gathers bytes [] bytes
  | piece {bytes more rest : List UInt8} {last : UInt8} {pieces : List (List UInt8)}
      (hbytes : Unsettled bytes) (hsettles : Settles (bytes ++ [last]))
      (hmore : Gathers more pieces rest) :
      Gathers (bytes ++ [last] ++ more) ((bytes ++ [last]) :: pieces) rest

theorem unsettled_nil : Unsettled [] := by
  intro start hstart hne
  exact absurd (List.prefix_nil.1 hstart) hne

theorem Unsettled.concat {bytes : List UInt8} {b : UInt8} (h : Unsettled bytes)
    (hb : ¬ Settles (bytes ++ [b])) : Unsettled (bytes ++ [b]) := by
  intro start hstart hne
  rcases List.prefix_concat_iff.1 hstart with rfl | hbytes
  · exact hb
  · exact h start hbytes hne

theorem Unsettled.length_lt {bytes : List UInt8} (h : Unsettled bytes) :
    bytes.length < gatherLimit := by
  cases bytes with
  | nil => decide
  | cons b bytes =>
    have hsettles := h (b :: bytes) List.prefix_rfl (by simp)
    exact Nat.lt_of_not_le fun hlen => hsettles (.inr hlen)

section
variable {bytes rest : List UInt8} {pieces : List (List UInt8)}

theorem Gathers.flatten (h : Gathers bytes pieces rest) : pieces.flatten ++ rest = bytes := by
  induction h with
  | rest hbytes => rfl
  | piece hbytes hsettles hmore ih => rw [List.flatten_cons, List.append_assoc, ih]

theorem Gathers.rest_length_lt (h : Gathers bytes pieces rest) : rest.length < gatherLimit := by
  induction h with
  | rest hbytes => exact hbytes.length_lt
  | piece hbytes hsettles hmore ih => exact ih

/-- A piece that is no text is as long as pieces get. -/
theorem Gathers.length_of_mem (h : Gathers bytes pieces rest) {piece : List UInt8}
    (hpiece : piece ∈ pieces) (hnone : decodeChars? piece = none) : piece.length = gatherLimit := by
  induction h with
  | rest hbytes => cases hpiece
  | piece hbytes hsettles hmore ih =>
    rcases List.mem_cons.1 hpiece with rfl | hmem
    · rcases hsettles with htext | hlong
      · rw [hnone] at htext
        cases htext
      · have hshort := hbytes.length_lt
        rw [List.length_append, List.length_singleton] at hlong ⊢
        omega
    · exact ih hmem

end

/-! ### One byte -/

/-- Outside of regions, with these bytes gathered. -/
structure Gathered (v : Vocabulary) (st : State) (bytes : List UInt8) : Prop where
  live : st.finished = false
  outside : st.inside = false
  held : st.held = []
  pending : st.pending = v.byteTokens bytes
  unsettled : Unsettled bytes

theorem Gathered.concat {v : Vocabulary} {st : State} {bytes : List UInt8} (h : Gathered v st bytes)
    (b : UInt8) : st.pending ++ [v.byteToken b] = v.byteTokens (bytes ++ [b]) := by
  rw [h.pending, Vocabulary.byteTokens, Vocabulary.byteTokens, List.map_append]
  rfl

theorem decodeLossy_of_decodeChars? {bs : List UInt8} {cs : List Char}
    (h : decodeChars? bs = some cs) : decodeLossy bs = cs := by
  rw [decodeLossy, decodeChars?_eq_some_iff.1 h, List.map_map]
  exact List.map_id _

section
variable {s : Setup} {v : Vocabulary} {st : State} {opening : String} {closing? : Option String}

theorem feed_outside (hframing : s.dialect.grammar.toolFraming = .tokens opening closing?)
    (st : State) (hin : st.inside = false) (cs : List Char) :
    st.feed s.dialect.grammar.toolFraming cs = (st, textOutput cs) := by
  rw [hframing, feed, if_neg (by rw [hin]; decide)]

/-- When too much is gathered, it is fed as well as it can be read. -/
theorem takeText_of_limit (hs : s.Knows v) {t : TokenId} (bytes : List UInt8) {all : List UInt8}
    (hpending : st.pending ≠ []) (hall : v.render false (st.pending ++ [t]) = .ok all)
    (hnone : decodeChars? all = none) (hlen : gatherLimit ≤ (st.pending ++ [t]).length) :
    ∃ st' outputs, s.takeText st t bytes = (st', .lossy (st.pending ++ [t]).length :: outputs) ∧
      { st with context := (st.pending ++ [t]).reverse ++ st.context, pending := [] }.feed
        s.dialect.grammar.toolFraming (decodeLossy all) = (st', outputs) := by
  rw [Setup.takeText, if_neg (by simpa using hpending), Setup.gather, detokenize_eq hs hall]
  simp only [hnone, if_pos hlen]
  exact ⟨_, _, rfl, rfl⟩

variable (hs : s.Knows v) (hframing : s.dialect.grammar.toolFraming = .tokens opening closing?)
  {bytes : List UInt8} (h : Gathered v st bytes) (b : UInt8)

include hs h

theorem push_byteToken :
    v.render false (st.pending ++ [v.byteToken b]) = .ok (bytes ++ [b]) ∧
      (st.pending ++ [v.byteToken b]).length = (bytes ++ [b]).length ∧
      s.push st (v.byteToken b) = s.takeText st (v.byteToken b) [b] := by
  refine ⟨?_, ?_, push_text_eq hs h.live (Reading.control?_byteToken _ v b)
    (Vocabulary.render_byteTokens v false [b])⟩
  · rw [h.concat, Vocabulary.render_byteTokens]
  · rw [h.concat, Vocabulary.byteTokens, List.length_map]

/-- A byte with which nothing settles is gathered. -/
theorem push_unsettled (hnot : ¬ Settles (bytes ++ [b])) :
    Gathered v (s.push st (v.byteToken b)).1 (bytes ++ [b]) ∧
      s.events (s.push st (v.byteToken b)).2 = [] := by
  obtain ⟨hall, hlength, hpush⟩ := push_byteToken hs h b
  obtain ⟨htext, hshort⟩ := not_or.1 hnot
  rw [hpush, takeText_of_cut hs (Vocabulary.render_byteTokens v false [b]) hall
    (by simpa using htext) (by omega)]
  exact ⟨⟨h.live, h.outside, h.held, h.concat b, h.unsettled.concat hnot⟩, rfl⟩

include hframing in
/-- A byte with which a piece settles is said with the piece. -/
theorem push_settles (hsettles : Settles (bytes ++ [b])) :
    Gathered v (s.push st (v.byteToken b)).1 [] ∧
      s.events (s.push st (v.byteToken b)).2 = ofText (decodeLossy (bytes ++ [b])) := by
  obtain ⟨hall, hlength, hpush⟩ := push_byteToken hs h b
  set read : State :=
    { st with context := (st.pending ++ [v.byteToken b]).reverse ++ st.context, pending := [] }
    with hread
  have hfed := feed_outside hframing read h.outside
  have hnext : Gathered v read [] := ⟨h.live, h.outside, h.held, rfl, unsettled_nil⟩
  rw [hpush]
  cases htext : decodeChars? (bytes ++ [b]) with
  | some cs =>
    rw [takeText_of_text hs (Vocabulary.render_byteTokens v false [b]) hall htext, ← hread,
      hfed, decodeLossy_of_decodeChars? htext]
    exact ⟨hnext, Setup.events_textOutput cs⟩
  | none =>
    have hlong : gatherLimit ≤ (bytes ++ [b]).length :=
      hsettles.resolve_left (by rw [htext]; decide)
    have hpending : st.pending ≠ [] := by
      intro hnil
      rw [hnil, List.nil_append, List.length_singleton] at hlength
      rw [← hlength] at hlong
      exact absurd hlong (by decide)
    obtain ⟨st', outputs, htake, hfeed⟩ :=
      takeText_of_limit hs [b] hpending hall htext (hlength ▸ hlong)
    rw [← hread, hfed] at hfeed
    obtain ⟨rfl, rfl⟩ := Prod.mk.inj hfeed
    rw [htake]
    exact ⟨hnext, Setup.events_textOutput _⟩

end

/-! ### Many bytes -/

section
variable {s : Setup} {v : Vocabulary} {opening : String} {closing? : Option String}

/-- Bytes are said piece by piece. -/
theorem pushAll_byteTokens (hs : s.Knows v)
    (hframing : s.dialect.grammar.toolFraming = .tokens opening closing?) (more : List UInt8)
    {st : State} {bytes : List UInt8} (h : Gathered v st bytes) :
    ∃ pieces rest, Gathers (bytes ++ more) pieces rest ∧
      Gathered v (s.pushAll st (v.byteTokens more)).1 rest ∧
      s.events (s.pushAll st (v.byteTokens more)).2 =
        pieces.flatMap fun piece => ofText (decodeLossy piece) := by
  -- The invariant is `Gathered`: a byte either joins what is gathered or ends a piece with it.
  induction more generalizing st bytes with
  | nil =>
    refine ⟨[], bytes, ?_, h, rfl⟩
    rw [List.append_nil]
    exact .rest h.unsettled
  | cons b more ih =>
    have htokens : v.byteTokens (b :: more) = v.byteToken b :: v.byteTokens more := rfl
    rw [htokens, pushAll_cons]
    by_cases hsettles : Settles (bytes ++ [b])
    · obtain ⟨hnext, hsaid⟩ := push_settles hs hframing h b hsettles
      obtain ⟨pieces, rest, hgathers, hlast, hrest⟩ := ih hnext
      refine ⟨(bytes ++ [b]) :: pieces, rest, ?_, hlast, ?_⟩
      · have := Gathers.piece h.unsettled hsettles hgathers
        rwa [List.nil_append, List.append_assoc, List.singleton_append] at this
      · rw [Setup.events_append, hsaid, hrest, List.flatMap_cons]
    · obtain ⟨hnext, hsaid⟩ := push_unsettled hs h b hsettles
      obtain ⟨pieces, rest, hgathers, hlast, hrest⟩ := ih hnext
      refine ⟨pieces, rest, ?_, hlast, ?_⟩
      · rwa [List.append_assoc, List.singleton_append] at hgathers
      · rw [Setup.events_append, hsaid, hrest, List.nil_append]

/-- What is still gathered at the end is not said. -/
theorem finish_gathered (s : Setup) {st : State} {bytes : List UInt8} (h : Gathered v st bytes) :
    s.events st.finish.2 = [] := by
  rw [events_finish, release_of_held_nil h.held, openRegion_outside h.outside]
  rfl

end

/-! ### What is said -/

/-- The text of events. -/
def joinedText (es : List StreamEvent) : List Char :=
  es.flatMap fun e => e.text.toList

theorem joinedText_ofText (cs : List Char) : joinedText (ofText cs) = cs := by
  cases cs with
  | nil => rfl
  | cons c cs => exact (List.append_nil _).trans (String.toList_ofList)

theorem joinedText_pieces (pieces : List (List UInt8)) :
    joinedText (pieces.flatMap fun piece => ofText (decodeLossy piece)) =
      pieces.flatMap decodeLossy := by
  rw [joinedText, List.flatMap_assoc]
  exact List.flatMap_congr fun piece _ => joinedText_ofText (decodeLossy piece)

/-- What is said of bytes that come in pieces and a rest. -/
structure Conveys (bytes : List UInt8) (pieces : List (List UInt8)) (rest : List UInt8)
    (es : List StreamEvent) : Prop where
  gathers : Gathers bytes pieces rest
  isText : ∀ e ∈ es, e.isText = true
  text : joinedText es = pieces.flatMap decodeLossy
  /-- Nothing is said that is not in the bytes, and nothing out of order. -/
  sublist : (legible (joinedText es)).Sublist (legible (decodeLossy bytes))
  /-- Everything is said but what is lost. -/
  missing : (legible (decodeLossy bytes)).Perm (legible (joinedText es) ++ lost pieces rest)
  complete : legible (joinedText es) = legible (decodeLossy bytes) ↔ lost pieces rest = []
  /-- What is lost comes at the end, or a piece that got too long ends within it. -/
  mem_lost : ∀ c, c ∈ lost pieces rest ↔ c ≠ '\uFFFD' ∧ (String.utf8EncodeChar c <:+: rest ∨
    ∃ before piece after, pieces = before ++ piece :: after ∧ decodeChars? piece = none ∧
      piece.length = gatherLimit ∧ Straddles c piece (after.flatten ++ rest))
  rest_short : rest.length < gatherLimit

theorem conveys_of_gathers {bytes rest : List UInt8} {pieces : List (List UInt8)}
    (h : Gathers bytes pieces rest) :
    Conveys bytes pieces rest (pieces.flatMap fun piece => ofText (decodeLossy piece)) := by
  have htext := joinedText_pieces pieces
  have hsublist := sublist_of_pieces pieces rest
  have hperm := perm_of_pieces pieces rest
  have hcomplete := eq_iff_lost_eq_nil pieces rest
  rw [h.flatten] at hsublist hperm hcomplete
  refine ⟨h, ?_, htext, htext ▸ hsublist, htext ▸ hperm, htext ▸ hcomplete, ?_, h.rest_length_lt⟩
  · intro e he
    obtain ⟨piece, -, hpiece⟩ := List.mem_flatMap.1 he
    rw [ofText] at hpiece
    split at hpiece
    · cases hpiece
    · rw [List.mem_singleton.1 hpiece]
      rfl
  · intro c
    rw [mem_lost]
    refine and_congr_right fun _ => or_congr_right ?_
    constructor
    · rintro ⟨before, piece, after, rfl, hcut⟩
      have hlength := h.length_of_mem (by simp) hcut.not_text
      exact ⟨before, piece, after, rfl, hcut.not_text, hlength, hcut⟩
    · rintro ⟨before, piece, after, hpieces, -, -, hcut⟩
      exact ⟨before, piece, after, hpieces, hcut⟩

/-- Any bytes, one token each, where regions are framed by tokens: they are said as text, piece by
piece. -/
theorem classify_byteTokens {d : Dialect} {opening : String} {closing? : Option String}
    (hframing : d.grammar.toolFraming = .tokens opening closing?) {v : Vocabulary}
    (hv : d.grammar.controlTokens ⊆ v.specials) (w : Whitelist) (prompt : List TokenId)
    (bytes : List UInt8) :
    ∃ es pieces rest, classify d v.codec w prompt (v.byteTokens bytes) = .ok es ∧
      Conveys bytes pieces rest es := by
  obtain ⟨s, hsetup, rfl, -, hs⟩ := setup_knows w hv
  have hinitial : Gathered v (.initial prompt) [] := ⟨rfl, rfl, rfl, rfl, unsettled_nil⟩
  obtain ⟨pieces, rest, hgathers, hlast, hsaid⟩ :=
    pushAll_byteTokens hs hframing bytes hinitial
  refine ⟨_, pieces, rest, ?_, conveys_of_gathers hgathers⟩
  rw [classify, hsetup, ← hsaid]
  show Except.ok (s.events (_ ++ _)) = _
  rw [Setup.events_append, finish_gathered s hlast, List.append_nil]

/-- A vocabulary with single bytes and nothing else but the control tokens of a dialect. -/
def byteVocabulary : Vocabulary :=
  .ofSpecials Grammar.qwen.controlTokens

/-- A stray byte before a text. -/
def strayBytes : List UInt8 :=
  0x80 :: encode "abcdefgh"

theorem classify_byteTokens_stray :
    Grammar.qwen.toolFraming = .tokens "<tool_call>" (some "</tool_call>") ∧
      Grammar.qwen.controlTokens ⊆ byteVocabulary.specials ∧
      ∃ es pieces rest,
        classify .qwen byteVocabulary.codec ⟨[]⟩ [] (byteVocabulary.byteTokens strayBytes) =
          .ok es ∧
        Conveys strayBytes pieces rest es :=
  ⟨rfl, List.Subset.refl _, classify_byteTokens rfl (List.Subset.refl _) ⟨[]⟩ [] strayBytes⟩

/-- After a stray byte a text that ends too early is not said, and the character at which too much
is gathered is cut. -/
theorem stray_byte_costs_text :
    (classify .qwen byteVocabulary.codec ⟨[]⟩ [] (byteVocabulary.byteTokens [0x80, 0x61]) = .ok [] ∧
      legible (joinedText []) ≠ legible (decodeLossy [0x80, 0x61])) ∧
    classify .qwen byteVocabulary.codec ⟨[]⟩ []
        (byteVocabulary.byteTokens (0x80 :: encode "aaaaaaé")) =
      .ok [.plain "\uFFFDaaaaaa\uFFFD"] ∧
    legible (joinedText [.plain "\uFFFDaaaaaa\uFFFD"]) ≠
      legible (decodeLossy (0x80 :: encode "aaaaaaé")) :=
  ⟨⟨by decide +kernel, by decide +kernel⟩, by decide +kernel, by decide +kernel⟩

end ChatRelay.Classifier
