import ChatRelay.Codec.Faults
import ChatRelay.Proofs.Codec.Entries
import ChatRelay.Proofs.Stream.Reachable

/-!
# Tokens that are skipped

A token is `Undecodable` in a state if the codec fails on it, alone in either rendering or together
with what is gathered. Such a token is skipped: it says nothing and leaves the state as it is
(`push_of_undecodable`), and until the end of the turn no other token does that (`push_eq_self_iff`).
Over a byte-level vocabulary the ids that stand for nothing are undecodable in every state, so
wherever they are inserted into a reply, the classifier does as without them (`undecodable_skipped`).
-/

namespace ChatRelay.Classifier

open State

/-- The codec fails on the token in this state: on either rendering of it alone or, if it is a text
token, on what is gathered together with it. -/
inductive Setup.Undecodable (s : Setup) (st : State) (t : TokenId) : Prop where
  | plain {e : EngineError} (h : s.codec.detokenize [t] st.context false = .error e)
  | shown {e : EngineError} (h : s.codec.detokenize [t] st.context true = .error e)
  | joint {bytes : List UInt8} {e : EngineError} (hframing : s.isFraming t = false)
      (hplain : s.codec.detokenize [t] st.context false = .ok bytes)
      (hshown : s.codec.detokenize [t] st.context true = .ok bytes)
      (h : s.codec.detokenize (st.pending ++ [t]) st.context false = .error e)

/-- The second list is the first with extra tokens inserted anywhere. -/
inductive Inserted (extra : TokenId → Prop) : List TokenId → List TokenId → Prop where
  | nil : Inserted extra [] []
  | keep (t : TokenId) {xs ys : List TokenId} (h : Inserted extra xs ys) :
      Inserted extra (t :: xs) (t :: ys)
  | insert {t : TokenId} (ht : extra t) {xs ys : List TokenId} (h : Inserted extra xs ys) :
      Inserted extra xs (t :: ys)

section
variable {s : Setup} {st : State} {t : TokenId}

/-! ### Kinds of tokens -/

theorem renderings_eq_ok {plain shown : List UInt8} :
    s.renderings st t = .ok (plain, shown) ↔
      s.codec.detokenize [t] st.context false = .ok plain ∧
        s.codec.detokenize [t] st.context true = .ok shown := by
  rw [Setup.renderings]
  cases s.codec.detokenize [t] st.context false with
  | error e => simp [bind, Except.bind]
  | ok bytes => cases s.codec.detokenize [t] st.context true <;> simp [bind, Except.bind]

theorem renderings_eq_error :
    (∃ e, s.renderings st t = .error e) ↔
      (∃ e, s.codec.detokenize [t] st.context false = .error e) ∨
        ∃ e, s.codec.detokenize [t] st.context true = .error e := by
  rw [Setup.renderings]
  cases s.codec.detokenize [t] st.context false with
  | error e => simp [bind, Except.bind]
  | ok bytes => cases s.codec.detokenize [t] st.context true <;> simp [bind, Except.bind]

theorem kind_eq_ignored :
    s.kind st t = .ignored ↔ st.finished = true ∨ ∃ e, s.renderings st t = .error e := by
  rw [Setup.kind]
  cases st.finished with
  | true => simp
  | false =>
    cases s.renderings st t with
    | error e => simp
    | ok both =>
      obtain ⟨plain, shown⟩ := both
      by_cases hcontrol : s.isFraming t ∨ plain ≠ shown <;> simp [hcontrol]

theorem kind_eq_text :
    s.kind st t = .text ↔ st.finished = false ∧ s.isFraming t = false ∧
      ∃ bytes, s.renderings st t = .ok (bytes, bytes) := by
  rw [Setup.kind]
  cases st.finished with
  | true => simp
  | false =>
    cases s.renderings st t with
    | error e => simp
    | ok both =>
      obtain ⟨plain, shown⟩ := both
      have hsame : plain = shown ↔ shown = plain := eq_comm
      simp [hsame]

/-! ### Skipping -/

/-- A token that cannot be decoded says nothing and leaves the state as it is. -/
theorem push_of_undecodable (h : s.Undecodable st t) :
    (s.push st t).1 = st ∧ s.events (s.push st t).2 = [] := by
  cases hfinished : st.finished with
  | true => exact push_of_ignored (kind_eq_ignored.2 (.inl hfinished))
  | false =>
    cases h with
    | plain h =>
      exact push_of_ignored (kind_eq_ignored.2 (.inr (renderings_eq_error.2 (.inl ⟨_, h⟩))))
    | shown h =>
      exact push_of_ignored (kind_eq_ignored.2 (.inr (renderings_eq_error.2 (.inr ⟨_, h⟩))))
    | joint hframing hplain hshown h =>
      -- The token has been gathered when the codec fails, but only in a list of its own.
      have hrender := renderings_eq_ok.2 ⟨hplain, hshown⟩
      rw [push_of_text (kind_eq_text.2 ⟨hfinished, hframing, _, hrender⟩)]
      simp only [Setup.gather, h]
      exact ⟨trivial, rfl⟩

theorem context_flush_le (s : Setup) (st : State) :
    st.context.length ≤ (s.flush st).1.context.length := by
  rw [Setup.flush]
  split
  · exact Nat.le_refl _
  split
  · rw [context_feed, List.length_append]
    exact Nat.le_add_left _ _
  · exact Nat.le_refl _

theorem context_takeControl (s : Setup) (st : State) (t : TokenId) (shown : List UInt8) :
    (s.takeControl st t shown).1.context = st.context := by
  rw [Setup.takeControl]
  split
  · rfl
  split
  · rfl
  split
  · rfl
  · exact context_release st

/-- A text token that can be decoded is gathered, or read with all that was. -/
theorem length_gather {bytes : List UInt8}
    (h : s.codec.detokenize (st.pending ++ [t]) st.context false = .ok bytes) :
    (s.gather st t).1.context.length + (s.gather st t).1.pending.length =
      st.context.length + st.pending.length + 1 := by
  have hread : ∀ cs,
      let read : State :=
        { st with context := (st.pending ++ [t]).reverse ++ st.context, pending := [] }
      let result := (read.feed s.dialect.grammar.toolFraming cs).1
      result.context.length + result.pending.length =
        st.context.length + st.pending.length + 1 := by
    intro cs
    obtain ⟨inside, held, region, hfeed⟩ := feed_frame s.dialect.grammar.toolFraming
      { st with context := (st.pending ++ [t]).reverse ++ st.context, pending := [] } cs
    simp only [hfeed, List.length_append, List.length_reverse, List.length_singleton,
      List.length_nil]
    omega
  simp only [Setup.gather, h]
  split
  · exact hread _
  split
  · exact hread _
  · simp only [List.length_append, List.length_singleton]
    omega

/-- Until the end of the turn, the tokens that leave the state as it is are those that cannot be
decoded. -/
theorem push_eq_self_iff :
    (s.push st t).1 = st ↔ st.finished = true ∨ s.Undecodable st t := by
  refine ⟨fun hsame => ?_, fun h => ?_⟩
  · cases hkind : s.kind st t with
    | ignored =>
      refine (kind_eq_ignored.1 hkind).imp_right fun herror => ?_
      rcases renderings_eq_error.1 herror with ⟨e, h⟩ | ⟨e, h⟩
      · exact .plain h
      · exact .shown h
    | control =>
      obtain ⟨shown, hpush⟩ := push_of_control hkind
      have hle := context_flush_le s st
      have := congrArg (fun st => st.context.length) hsame
      simp only [hpush, context_takeControl, List.length_cons] at this
      omega
    | text =>
      obtain ⟨-, hframing, bytes, hrender⟩ := kind_eq_text.1 hkind
      obtain ⟨hplain, hshown⟩ := renderings_eq_ok.1 hrender
      rw [push_of_text hkind] at hsame
      cases hjoint : s.codec.detokenize (st.pending ++ [t]) st.context false with
      | error e => exact .inr (.joint hframing hplain hshown hjoint)
      | ok joined =>
        have hlength := length_gather hjoint
        rw [hsame] at hlength
        omega
  · rcases h with hfinished | h
    · exact (push_of_ignored (kind_eq_ignored.2 (.inl hfinished))).1
    · exact (push_of_undecodable h).1

end

/-! ### Inserted tokens -/

/-- An id that stands for nothing cannot be decoded in any state. -/
theorem undecodable_of_isAbsent {s : Setup} {v : Vocabulary} (hcodec : s.codec = v.codec)
    {t : TokenId} (ht : v.IsAbsent t) (st : State) : s.Undecodable st t := by
  obtain ⟨e, he⟩ := Vocabulary.detokenize_of_isAbsent ht st.context false
  exact .plain (by rw [hcodec]; exact he)

/-- Extra tokens that are skipped in every state change nothing. -/
theorem pushAll_inserted {s : Setup} {extra : TokenId → Prop}
    (hextra : ∀ t, extra t → ∀ st, s.Undecodable st t) {xs ys : List TokenId}
    (h : Inserted extra xs ys) (st : State) :
    (s.pushAll st ys).1 = (s.pushAll st xs).1 ∧
      s.events (s.pushAll st ys).2 = s.events (s.pushAll st xs).2 := by
  induction h generalizing st with
  | nil => exact ⟨rfl, rfl⟩
  | keep t h ih =>
    obtain ⟨hstate, hevents⟩ := ih (s.push st t).1
    refine ⟨hstate, ?_⟩
    simp only [Setup.pushAll, Setup.events_append, hevents]
  | insert ht h ih =>
    obtain ⟨hstate, hevents⟩ := ih st
    obtain ⟨hsame, hnone⟩ := push_of_undecodable (hextra _ ht st)
    simp only [Setup.pushAll, Setup.events_append, hsame, hnone, List.nil_append]
    exact ⟨hstate, hevents⟩

/-- A token that cannot be decoded is skipped, in every state and whatever the codec does: it says
nothing and leaves the state as it is. So over a byte-level vocabulary, negative ids and ids out of
vocabulary may be inserted anywhere among the tokens that are pushed: the events are the same, and
so is the state in the end. -/
theorem undecodable_skipped (s : Setup) :
    (∀ st t, s.Undecodable st t → (s.push st t).1 = st ∧ s.events (s.push st t).2 = []) ∧
    ∀ v : Vocabulary, s.codec = v.codec →
      ∀ xs ys, Inserted v.IsAbsent xs ys → ∀ st,
        (s.pushAll st ys).1 = (s.pushAll st xs).1 ∧
          s.events (s.pushAll st ys).2 = s.events (s.pushAll st xs).2 := by
  refine ⟨fun st t => push_of_undecodable, fun v hcodec xs ys h st => ?_⟩
  exact pushAll_inserted (fun t ht => undecodable_of_isAbsent hcodec ht) h st

/-- A classifier for the control tokens of a dialect and the bytes. -/
def byteSetup : Setup :=
  ⟨(Vocabulary.ofSpecials Grammar.qwen.controlTokens).codec, .qwen, ⟨[]⟩, 2, some 3, some 4⟩

/-- The same with a codec that cannot render two tokens at once. -/
def singleSetup : Setup :=
  { byteSetup with codec := Faults.applyTo ⟨none, some 2, false, false⟩ byteSetup.codec }

/-- The first byte of a character is gathered. -/
def gatheringState : State := ⟨[], false, [], [], [202], false⟩

theorem undecodable_skipped_gathering :
    (singleSetup.push gatheringState 176).1 = gatheringState ∧
      singleSetup.events (singleSetup.push gatheringState 176).2 = [] ∧
      (byteSetup.pushAll (.initial []) [202, -1, 263, 176, 1000]).1 =
        (byteSetup.pushAll (.initial []) [202, 176]).1 ∧
      byteSetup.events (byteSetup.pushAll (.initial []) [202, -1, 263, 176, 1000]).2 =
        [.plain "é"] := by
  have hplain : singleSetup.codec.detokenize [176] [] false = .ok [0xA9] := by decide
  have htogether : singleSetup.codec.detokenize [202, 176] [] false =
      .error (.detokenize "refused 2 tokens") := by decide
  have hjoint : singleSetup.Undecodable gatheringState 176 :=
    .joint (by decide) hplain (by decide) htogether
  have hinserted : Inserted (Vocabulary.IsAbsent (.ofSpecials Grammar.qwen.controlTokens))
      [202, 176] [202, -1, 263, 176, 1000] :=
    .keep _ (.insert (.inl (by decide)) (.insert (.inr (by decide))
      (.keep _ (.insert (.inr (by decide)) .nil))))
  obtain ⟨hsame, hnone⟩ := (undecodable_skipped singleSetup).1 _ _ hjoint
  obtain ⟨hstate, hevents⟩ := (undecodable_skipped byteSetup).2 _ rfl _ _ hinserted (.initial [])
  exact ⟨hsame, hnone, hstate, hevents.trans (by decide +kernel)⟩

end ChatRelay.Classifier
