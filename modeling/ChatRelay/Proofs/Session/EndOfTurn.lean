import ChatRelay.Proofs.Session.Departing
import ChatRelay.Proofs.Session.Uninterrupted
import ChatRelay.Proofs.Stream.Reachable

/-!
# The two ways to the end of the turn

An engine that asks whether to stop keeps the end of the turn to itself, and the classifier is told
that the reply is over. An engine that never asks hands the token on, and the classifier sees for
itself. Up to there both ways say the same, and if no tokens are gathered then, also after: whatever
is held back and whichever region is open. Tokens that are gathered are dropped on the first way and
read lossily on the second (`run_endOfTurn`).
-/

namespace ChatRelay

open Classifier

/-! ### An engine that does not ask -/

namespace Generation

variable {g : Generation}

theorem pull_unasked (hasks : g.asksToStop = false) (hfail : g.failAt = none) (t : TokenId) :
    g.pull false (some t) =
      if (g.setup.push g.state t).1.finished then
        g.said ((g.setup.push g.state t).2 ++ (g.setup.push g.state t).1.finish.2) true none
      else
        g.said (g.setup.push g.state t).2 true
          (some { g with state := (g.setup.push g.state t).1, drawn := g.drawn + 1 }) := by
  simp [pull, hfail, stopsAt, hasks]

/-- The reply ends with the token that the classifier takes for its end. -/
theorem rest_unasked (hasks : g.asksToStop = false) (hfail : g.failAt = none)
    (hlive : g.state.finished = false) {ts : List TokenId} (hts : g.setup.endOfTurn ∉ ts)
    (hends : ∀ st, st.finished = false → (g.setup.push st g.setup.endOfTurn).1.finished = true)
    (more : List TokenId) :
    g.rest (ts ++ g.setup.endOfTurn :: more) =
      g.eventsOf ts ++
        (g.setup.events (g.setup.push (g.after ts).state g.setup.endOfTurn).2 ++
          g.setup.events (g.setup.push (g.after ts).state g.setup.endOfTurn).1.finish.2) := by
  induction ts generalizing g with
  | nil =>
    rw [List.nil_append, rest, pull_unasked hasks hfail, if_pos (hends g.state hlive)]
    exact Setup.events_append _ _
  | cons t ts ih =>
    obtain ⟨hne, hrest⟩ := List.ne_and_not_mem_of_not_mem_cons hts
    have hgoes : (g.setup.push g.state t).1.finished = false :=
      (Setup.finished_push hne.symm).trans hlive
    have htail := @ih (g.after [t]) hasks hfail hgoes hrest hends
    have hone : g.eventsOf [t] = g.setup.events (g.setup.push g.state t).2 :=
      congrArg g.setup.events (List.append_nil _)
    rw [List.cons_append, rest, pull_unasked hasks hfail, hgoes, if_neg Bool.false_ne_true,
      eventsOf_cons, after_cons, hone, List.append_assoc]
    exact congrArg (g.setup.events (g.setup.push g.state t).2 ++ ·) htail

end Generation

/-! ### The end of the turn -/

namespace Classifier

variable {s : Setup} {v : Vocabulary} {st : State}

/-- A control token of a vocabulary can be rendered, whatever came before. -/
theorem renderings_special (hcodec : s.codec = v.codec) {text : String} {t : TokenId}
    (h : v.codec.specialTokenId text = .ok t) (st : State) :
    ∃ plain shown, s.renderings st t = .ok (plain, shown) := by
  have hnamed : v.isNamed text t = true := by
    unfold Vocabulary.codec at h
    dsimp only at h
    split at h
    · next i hi =>
      obtain rfl := Except.ok.inj h
      simp [Vocabulary.isNamed, hi]
    · cases h
  obtain ⟨visible, hentry⟩ := Vocabulary.entry_of_isNamed hnamed
  exact ⟨_, _, renderings_eq hcodec (Vocabulary.render_single hentry false)
    (Vocabulary.render_single hentry true)⟩

/-- The end of the turn ends the reply, after what is gathered has been read. -/
theorem push_end (hrender : ∃ plain shown, s.renderings st s.endOfTurn = .ok (plain, shown))
    (hlive : st.finished = false) :
    s.push st s.endOfTurn =
      ({ (s.flush st).1 with
          context := s.endOfTurn :: (s.flush st).1.context, finished := true },
        (s.flush st).2) := by
  obtain ⟨plain, shown, hrender⟩ := hrender
  have hcontrol : s.kind st s.endOfTurn = .control := by
    simp [Setup.kind, hlive, hrender, Setup.isFraming]
  obtain ⟨shown, hpush⟩ := push_of_control hcontrol
  rw [hpush, Setup.takeControl, if_pos rfl, List.append_nil]

/-- What finishing says does not depend on the tokens read. -/
theorem events_finish_congr (s : Setup) (st : State) (context : List TokenId) (finished : Bool) :
    s.events (State.finish { st with context, finished }).2 = s.events st.finish.2 := by
  simp only [events_finish, openRegion_release, outputs_release]

/-- Tokens leave a classifier live. -/
theorem Live.pushAll {text : List Char} {es : List StreamEvent} (hs : s.Framed)
    (h : Live s st text es) (ts : List TokenId) :
    ∃ text' es', Live s (s.pushAll st ts).1 text' es' := by
  induction ts generalizing st text es with
  | nil => exact ⟨text, es, h⟩
  | cons t ts ih => exact ih (push_live hs h t)

/-- A reply after tokens and then the end of the turn, in a state and with events so far: the engine
keeps the token to itself (`stopped`) or hands it on (`passed`). -/
structure Ends (s : Setup) (st : State) (said stopped passed : List StreamEvent) : Prop where
  stopped_eq : stopped = said ++ s.events st.finish.2
  passed_eq : passed = said ++ s.events (s.flush st).2 ++ s.events (s.flush st).1.finish.2
  /-- Where nothing is gathered, it makes no difference. -/
  same : st.pending = [] → passed = stopped
  /-- What is gathered is no text, and it is read as it is only on the second way. -/
  gathered : st.pending ≠ [] → ∃ bytes,
    s.codec.detokenize st.pending st.context false = .ok bytes ∧ Utf8.decodeChars? bytes = none ∧
      s.flush st = { st with context := st.pending.reverse ++ st.context, pending := [] }.feed
        s.dialect.grammar.toolFraming (Utf8.decodeLossy bytes)

theorem ends_of_live {text : List Char} {es said stopped passed : List StreamEvent}
    (h : Live s st text es) (hstopped : stopped = said ++ s.events st.finish.2)
    (hpassed : passed = said ++ s.events (s.flush st).2 ++ s.events (s.flush st).1.finish.2) :
    Ends s st said stopped passed := by
  refine ⟨hstopped, hpassed, ?_, ?_⟩
  · intro hnone
    have hflush : s.flush st = (st, []) := by simp [Setup.flush, hnone]
    rw [hpassed, hstopped, hflush, Setup.events_nil, List.append_nil]
  · intro hsome
    obtain ⟨bytes, hbytes, hnotext⟩ := h.unread hsome
    refine ⟨bytes, hbytes, hnotext, ?_⟩
    simp [Setup.flush, hsome, hbytes]

end Classifier

/-! ### Whole runs -/

/-- What a consumer that takes everything gets of an engine that replays a script. -/
def replay (d : Dialect) (v : Vocabulary) (script : List TokenId) (asks : Bool) (maxTokens : Nat)
    (request : GenerateRequest) : List StreamEvent :=
  ((Registry.new d ⟨v.codec, ⟨script, none, asks, none⟩⟩ maxTokens).run request .none).received

theorem replay_eq (d : Dialect) (v : Vocabulary) (script : List TokenId) (asks : Bool)
    (maxTokens : Nat) (request : GenerateRequest) :
    replay d v script asks maxTokens request =
      match preparation d v.codec request with
      | .error e => [.failure e.message]
      | .ok (prompt, s) =>
        (⟨s, .initial prompt, 0, none, asks, maxTokens⟩ : Generation).rest script := by
  have hserving := Registry.serving_new d ⟨v.codec, ⟨script, none, asks, none⟩⟩ maxTokens
  have hreceived := (hserving.run request Reactions.departing_none).1
  have hwhole : replay d v script asks maxTokens request =
      Registry.answer d ⟨v.codec, ⟨script, none, asks, none⟩⟩ maxTokens request :=
    hreceived.trans (Reactions.taken_none 1 _)
  have hengine : (Registry.new d ⟨v.codec, ⟨script, none, asks, none⟩⟩ maxTokens).inUse.engine =
      some ⟨v.codec, ⟨script, none, asks, none⟩⟩ := rfl
  have hdialect : (Registry.new d ⟨v.codec, ⟨script, none, asks, none⟩⟩ maxTokens).inUse.dialect =
      d := rfl
  rw [hwhole, Registry.answer, Registry.stream, Registry.prepare_eq hengine, hdialect]
  cases preparation d v.codec request with
  | error e => rfl
  | ok prepared => rfl

theorem setup_of_preparation {d : Dialect} {codec : TokenCodec} {request : GenerateRequest}
    {prompt : List TokenId} {s : Setup} (h : preparation d codec request = .ok (prompt, s)) :
    setup d codec (.ofDefinitions request.tools) = .ok s := by
  unfold preparation at h
  split at h
  · cases h
  · cases h
  split at h
  · cases h
  · next hs =>
    obtain ⟨-, rfl⟩ := Prod.mk.inj (Except.ok.inj h)
    exact hs

/-- An engine that asks replies with the tokens before the end of the turn. -/
theorem replyEvents_endOfTurn {s : Setup} {before : List TokenId} (hbefore : s.endOfTurn ∉ before)
    {limit : Nat} (hlimit : before.length ≤ limit) (prompt after : List TokenId) :
    replyEvents s prompt (before ++ s.endOfTurn :: after) none limit =
      s.events (s.reply prompt before) := by
  have hindex : (before ++ s.endOfTurn :: after).idxOf s.endOfTurn = before.length := by
    rw [List.idxOf_append_of_notMem hbefore, List.idxOf_cons_self, Nat.add_zero]
  have hlength : min (min (before ++ s.endOfTurn :: after).length limit) before.length =
      before.length := by
    rw [List.length_append]
    omega
  rw [replyEvents, hindex, hlength, List.take_left]
  rfl

/-- A request to an engine whose script has the end of the turn within the limit, and that asks
whether to stop or does not: either way it is the same error, or else the same reply up to the end
of the turn, and then what `Ends` says. -/
theorem replay_endOfTurn {d : Dialect} {v : Vocabulary} {endOfTurn : TokenId}
    (hend : v.codec.specialTokenId d.grammar.endOfTurn = .ok endOfTurn) {before : List TokenId}
    (hbefore : endOfTurn ∉ before) {maxTokens : Nat} (hlimit : before.length ≤ maxTokens)
    (after : List TokenId) (request : GenerateRequest) :
    (∃ e, preparation d v.codec request = .error e ∧ ∀ asks,
      replay d v (before ++ endOfTurn :: after) asks maxTokens request = [.failure e.message]) ∨
    ∃ prompt s, preparation d v.codec request = .ok (prompt, s) ∧
      Ends s (s.pushAll (.initial prompt) before).1
        (s.events (s.pushAll (.initial prompt) before).2)
        (replay d v (before ++ endOfTurn :: after) true maxTokens request)
        (replay d v (before ++ endOfTurn :: after) false maxTokens request) := by
  cases hprepared : preparation d v.codec request with
  | error e =>
    refine .inl ⟨e, rfl, fun asks => ?_⟩
    rw [replay_eq, hprepared]
  | ok prepared =>
    obtain ⟨prompt, s⟩ := prepared
    have hsetup := setUp_of_setup (setup_of_preparation hprepared)
    obtain rfl : endOfTurn = s.endOfTurn := Except.ok.inj (hend.symm.trans hsetup.endOfTurn)
    obtain ⟨text, es, hlive⟩ := (live_initial s prompt).pushAll hsetup.framed before
    refine .inr ⟨prompt, s, rfl, ends_of_live hlive ?_ ?_⟩
    · rw [replay_eq, hprepared]
      show (Generation.fresh s prompt none maxTokens).rest _ = _
      rw [Generation.rest_fresh, replyEvents_endOfTurn hbefore hlimit]
      exact Setup.events_append _ _
    · have hopen : (s.pushAll (.initial prompt) before).1.finished = false :=
        Setup.finished_pushAll hbefore
      have hpush : ∀ st : State, st.finished = false → s.push st s.endOfTurn =
          ({ (s.flush st).1 with
              context := s.endOfTurn :: (s.flush st).1.context, finished := true },
            (s.flush st).2) :=
        fun st hst => push_end (renderings_special hsetup.codec_eq hend st) hst
      have hends : ∀ st : State, st.finished = false →
          (s.push st s.endOfTurn).1.finished = true := fun st hst => by rw [hpush st hst]
      have hrest := Generation.rest_unasked
        (g := ⟨s, .initial prompt, 0, none, false, maxTokens⟩) rfl rfl rfl hbefore hends after
      rw [replay_eq, hprepared]
      refine hrest.trans ?_
      show s.events (s.pushAll (.initial prompt) before).2 ++
        (s.events (s.push (s.pushAll (.initial prompt) before).1 s.endOfTurn).2 ++
          s.events (s.push (s.pushAll (.initial prompt) before).1 s.endOfTurn).1.finish.2) = _
      rw [hpush _ hopen, events_finish_congr, List.append_assoc]

/-- A vocabulary of bytes for markers in text. -/
def markedVocabulary : Vocabulary :=
  .ofSpecials Grammar.gemma.controlTokens

/-- Tokens that leave a region open and what may be the start of a marker held back. -/
def openEnded : List TokenId :=
  markedVocabulary.encode "a```tool_code\nls()\n`"

theorem replay_endOfTurn_open_region :
    markedVocabulary.codec.specialTokenId Grammar.gemma.endOfTurn = .ok 3 ∧ 3 ∉ openEnded ∧
      openEnded.length ≤ 99 ∧
      ((∃ e, preparation .gemma markedVocabulary.codec Registry.greeting = .error e ∧ ∀ asks,
        replay .gemma markedVocabulary (openEnded ++ [3]) asks 99 Registry.greeting =
          [.failure e.message]) ∨
      ∃ prompt s, preparation .gemma markedVocabulary.codec Registry.greeting = .ok (prompt, s) ∧
        Ends s (s.pushAll (.initial prompt) openEnded).1
          (s.events (s.pushAll (.initial prompt) openEnded).2)
          (replay .gemma markedVocabulary (openEnded ++ [3]) true 99 Registry.greeting)
          (replay .gemma markedVocabulary (openEnded ++ [3]) false 99 Registry.greeting)) ∧
      replay .gemma markedVocabulary (openEnded ++ [3]) true 99 Registry.greeting =
        [.plain "a", .toolCalls "ls()\n`"] := by
  have hend : markedVocabulary.codec.specialTokenId Grammar.gemma.endOfTurn = .ok 3 := rfl
  have hbefore : 3 ∉ openEnded := by decide +kernel
  have hlimit : openEnded.length ≤ 99 := by decide +kernel
  exact ⟨hend, hbefore, hlimit, replay_endOfTurn hend hbefore hlimit [] Registry.greeting,
    by decide +kernel⟩

/-- The first byte of a character that never comes is dropped by an engine that asks, and said by
one that does not. -/
theorem endOfTurn_drops_gathered :
    byteVocabulary.codec.specialTokenId Grammar.qwen.endOfTurn = .ok 2 ∧
      2 ∉ byteVocabulary.byteTokens [0xC3] ∧ (byteVocabulary.byteTokens [0xC3]).length ≤ 9 ∧
      replay .qwen byteVocabulary (byteVocabulary.byteTokens [0xC3] ++ [2]) true 9
        Registry.greeting = [] ∧
      replay .qwen byteVocabulary (byteVocabulary.byteTokens [0xC3] ++ [2]) false 9
        Registry.greeting = [.plain "\uFFFD"] ∧
      replay .qwen byteVocabulary (byteVocabulary.byteTokens [0xC3] ++ [2]) true 9
          Registry.greeting ≠
        replay .qwen byteVocabulary (byteVocabulary.byteTokens [0xC3] ++ [2]) false 9
          Registry.greeting :=
  ⟨rfl, by decide +kernel, by decide +kernel, by decide +kernel, by decide +kernel,
    by decide +kernel⟩

end ChatRelay
