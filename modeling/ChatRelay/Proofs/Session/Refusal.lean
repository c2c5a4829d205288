import ChatRelay.Proofs.Prompt.Acceptance
import ChatRelay.Proofs.Session.Consuming

/-!
# Conversations that are refused

A session that is given a conversation without a prompt answers with one error event, and does not
ask the engine for a reply (`stream_of_refused`). A session during which the relay is shut down
before that says nothing at all. A consumer who runs such a request by himself cannot ask for a
shutdown before he has the event; so if no one else does, he gets it, and whatever he does then, no
reply has been asked for (`run_of_refused`).
-/

namespace ChatRelay

open Prompt

/-! ### Replies asked for -/

namespace Registry

theorem invocations_release (r : Registry) :
    r.release.usage.invocations = r.usage.invocations := by
  unfold release
  split <;> rfl

theorem invocations_endSession (r : Registry) (unwinding : Bool) :
    (r.endSession unwinding).usage.invocations = r.usage.invocations := by
  rw [endSession_eq]
  split
  · exact invocations_release { r with generating := false }
  · rfl

/-- Shutting down asks for no reply. -/
theorem invocations_requestShutdown (r : Registry) :
    r.requestShutdown.2.usage.invocations = r.usage.invocations := by
  unfold requestShutdown tryLock
  cases r.cancel.2.busy with
  | true => rfl
  | false => cases r.cancel.2.poisoned <;> exact invocations_release r.cancel.2.lock

end Registry

/-! ### Receiving one event -/

namespace Run

/-- A consumer has received the event, and has asked for no reply. -/
structure Received (run : Run) (e : StreamEvent) (run' : Run) : Prop where
  log : run'.log = e :: run.log
  invocations : run'.registry.usage.invocations = run.registry.usage.invocations

variable {run run' : Run} {e : StreamEvent}

theorem Received.askShutdown (h : run.Received e run') : run.Received e run'.askShutdown :=
  ⟨h.log, (Registry.invocations_requestShutdown run'.registry).trans h.invocations⟩

theorem Received.cancel (h : run.Received e run') : run.Received e run'.cancel :=
  ⟨h.log, h.invocations⟩

theorem Received.ite {run'' : Run} (h : run.Received e run') (h' : run.Received e run'')
    (p : Prop) [Decidable p] : run.Received e (if p then run' else run'') := by
  split
  · exact h
  · exact h'

/-- Whatever a consumer does at an event, it has received it. -/
theorem received_take (reactions : Reactions) (run : Run) (e : StreamEvent) :
    run.Received e (run.take reactions e).1 := by
  have hreceived : run.Received e (run.receive e) := ⟨rfl, rfl⟩
  have hasked := hreceived.askShutdown.ite hreceived
    (reactions.shutdownAt = some (run.receive e).count)
  unfold Run.take
  dsimp only
  split
  · exact ⟨(hasked.cancel.ite hasked _).log, (hasked.cancel.ite hasked _).invocations⟩
  · exact hasked.cancel.ite hasked _

end Run

theorem EventStream.drain_failed (cancelled now : Bool) (e : SessionError) :
    ((EventStream.failed cancelled e).drain now).1 = e.events cancelled := by
  cases cancelled <;> rfl

namespace Registry

variable {r : Registry}

/-! ### Refused conversations -/

section
variable {engine : Engine} {messages : List Message} {tools : List ToolDefinition} {e : Invalid}
  (hengine : r.engine = some engine) (h : segments r.dialect messages tools = .error e)
include hengine h

theorem prepare_of_refused : r.prepare messages tools = .error (.invalid e) := by
  rw [prepare, hengine]
  simp only [Prompt.tokens, h]

/-- A session leaves the registry alone, and has the error to tell. -/
theorem stream_of_refused :
    r.stream messages tools = (.failed r.cancelled (.invalid e), r) := by
  rw [stream, prepare_of_refused hengine h]

end

/-- A session begins on an engine that is there, unless the relay is shutting down. -/
theorem free_of_begin (h : r.begin.1 = .ok ()) :
    r.cancelled = false ∧ ∃ engine, r.engine = some engine := by
  cases hcancelled : r.cancelled with
  | true =>
    rw [begin, if_pos hcancelled] at h
    cases h
  | false =>
    cases hengine : r.engine with
    | none => simp [begin, beginLocked, hcancelled, hengine] at h
    | some engine => exact ⟨rfl, engine, rfl⟩

/-- A request with a conversation that is refused, run with no one else shutting the relay down
after it has begun, is one error event, whatever the consumer does at it; and the engine is not
asked for a reply. -/
theorem run_of_refused (hbegin : r.begin.1 = .ok ()) {request : GenerateRequest} {e : Invalid}
    (h : segments r.dialect request.messages request.tools = .error e) (reactions : Reactions) :
    (r.run request reactions).received = [.failure e.message] ∧
      (r.run request reactions).registry.usage.invocations = r.usage.invocations := by
  obtain ⟨hcancelled, engine, hengine⟩ := free_of_begin hbegin
  have hrun : r.run request reactions =
      (Run.take reactions (r.opened request r.inUse) (.failure e.message)).1.ended := by
    have hprepare := prepare_of_refused (r := r.inUse) hengine h
    rw [← serve_fst, serve_of_refused hcancelled hengine hprepare, Consumer.deliver_single]
    rfl
  have htaken := Run.received_take reactions (r.opened request r.inUse) (.failure e.message)
  rw [hrun]
  refine ⟨?_, (invocations_endSession _ _).trans htaken.invocations⟩
  show List.reverse _ = _
  rw [Run.ended, htaken.log]
  rfl

end Registry

/-! ### Which conversations are answered -/

/-- The well-formed conversations are those that a prompt is made of, whatever is said and called in
them and whatever tools there are. Any other is refused with the error for its start or, if it has
none, with that for the first message that offends. A session that is given it leaves the engine
alone and tells of that error in its only event, or of nothing if the relay is shutting down by
then. So a request that begins comes to that event if no other caller asks for a shutdown between
its beginning and its session's answer. -/
theorem conversation_accepted_iff (d : Dialect) (messages : List Message)
    (tools : List ToolDefinition) :
    ((∃ merged, segments d messages tools = .ok merged) ↔ WellFormed d messages) ∧
    (∀ e, segments d messages tools = .error e ↔ Refused d messages e) ∧
    (∀ messages' tools', List.Forall₂ SameRole messages messages' →
      ((∃ merged, segments d messages tools = .ok merged) ↔
        ∃ merged, segments d messages' tools' = .ok merged)) ∧
    ∀ e, Refused d messages e → ∀ r : Registry, r.dialect = d →
      (r.engine.isSome = true → (r.stream messages tools).2 = r ∧
        ∀ now, ((r.stream messages tools).1.drain now).1 =
          if r.cancelled then [] else [.failure e.message]) ∧
      ∀ request reactions, request.messages = messages → request.tools = tools →
        r.begin.1 = .ok () →
          (r.run request reactions).received = [.failure e.message] ∧
            (r.run request reactions).registry.usage.invocations = r.usage.invocations := by
  refine ⟨segments_isOk_iff, fun e => segments_eq_error_iff, fun messages' tools' hsame => ?same,
    fun e hrefused r hdialect => ⟨fun hengine => ?stream, ?run⟩⟩
  case same =>
    rw [exists_ok_iff, exists_ok_iff]
    exact forall_congr' fun e => not_congr (segments_eq_error_congr hsame)
  case stream =>
    subst hdialect
    obtain ⟨engine, hengine⟩ := Option.isSome_iff_exists.1 hengine
    rw [Registry.stream_of_refused hengine (segments_eq_error_iff.2 hrefused)]
    exact ⟨rfl, fun now => EventStream.drain_failed r.cancelled now (.invalid e)⟩
  case run =>
    rintro request reactions rfl rfl hbegin
    subst hdialect
    exact Registry.run_of_refused hbegin (segments_eq_error_iff.2 hrefused) reactions

/-- An engine with nothing to say. -/
def silentEngine : Engine :=
  ⟨(Vocabulary.ofSpecials Grammar.qwen.controlTokens).codec, .ofScript []⟩

/-- A conversation with two messages that offend. -/
def offendingMessages : List Message :=
  [.plain .system "s", .plain .user "u", .plain .tool "[1]", .plain .system "late"]

/-- The same conversation with other things said and called in it. -/
def reworded : List Message :=
  [.plain .system "", (Message.plain .user "[]").withToolCalls [⟨"f", []⟩], .plain .tool "[1]",
    .plain .system ""]

theorem conversation_accepted_iff_offending :
    Refused .qwen offendingMessages (.badToolResults "[1]") ∧
      (¬ ∃ merged, segments .qwen reworded [⟨.null⟩] = .ok merged) ∧
      ((Registry.new .qwen silentEngine 9).stream offendingMessages []).2.usage = .none ∧
      (((Registry.new .qwen silentEngine 9).stream offendingMessages []).1.drain false).1 =
        [.failure "Invalid tool results: [1]"] ∧
      ((Registry.new .qwen silentEngine 9).run ⟨offendingMessages, none⟩ (.shutting 1)).received =
        [.failure "Invalid tool results: [1]"] ∧
      ((Registry.new .qwen silentEngine 9).run ⟨offendingMessages, none⟩
        (.shutting 1)).registry.usage.invocations = 0 := by
  obtain ⟨-, hrefused, hsame, hanswered⟩ := conversation_accepted_iff .qwen offendingMessages []
  have hfirst := (hrefused (.badToolResults "[1]")).1 (by decide +kernel)
  have hroles : List.Forall₂ SameRole offendingMessages reworded :=
    .cons ⟨rfl, by decide⟩ (.cons ⟨rfl, by decide⟩ (.cons ⟨rfl, by decide⟩
      (.cons ⟨rfl, by decide⟩ .nil)))
  obtain ⟨hstream, hrun⟩ := hanswered _ hfirst (.new .qwen silentEngine 9) rfl
  obtain ⟨hregistry, hdrained⟩ := hstream rfl
  refine ⟨hfirst, ?_, by rw [hregistry]; rfl, hdrained false,
    hrun ⟨offendingMessages, none⟩ (.shutting 1) rfl rfl rfl⟩
  rw [← hsame reworded [⟨.null⟩] hroles, exists_ok_iff]
  exact fun hok => hok _ ((hrefused _).2 hfirst)

/-- Lists within lists. -/
def nested : Nat → Json
  | 0 => .arr []
  | n + 1 => .arr [nested n]

/-- A list of one object that is nested as deep as the reader refuses to go. -/
def deepResults : Json := .arr [.obj [("a", nested 125)]]

theorem floatFree_nested (n : Nat) : (nested n).FloatFree := by
  induction n with
  | zero => trivial
  | succ n ih => exact ⟨ih, trivial⟩

theorem ordered_nested (n : Nat) : (nested n).Ordered := by
  induction n with
  | zero => trivial
  | succ n ih => exact ⟨ih, trivial⟩

theorem depth_nested (n : Nat) : (nested n).depth = n + 1 := by
  induction n with
  | zero => rfl
  | succ n ih => simp [nested, Json.depth, Json.depthItems, ih]

/-- Results that are nested too deep are refused, although they are a list of objects; and a session
says nothing of a conversation that it refuses if a shutdown has been asked for. -/
theorem refused_deep_or_silent :
    (AreResults .qwen deepResults ∧
      segments .qwen [.plain .system "s", .plain .tool deepResults.compact] [] =
        .error (.badToolResults deepResults.compact)) ∧
    segments .qwen [] [] = .error .noMessages ∧
      (Registry.new .qwen silentEngine 9).begin.1 = .ok () ∧
      (((Registry.new .qwen silentEngine 9).begin.2.requestShutdown.2.stream [] []).1.drain true).1 =
        [] := by
  have hf : deepResults.FloatFree := ⟨⟨floatFree_nested 125, trivial⟩, trivial⟩
  have ho : deepResults.Ordered :=
    ⟨⟨List.pairwise_singleton .., ordered_nested 125, trivial⟩, trivial⟩
  have hdepth : deepResults.depth = Json.Tree.depthLimit := by
    simp [deepResults, Json.depth, Json.depthItems, Json.depthMembers, depth_nested,
      Json.Tree.depthLimit]
  have hbad : ¬ IsResults .qwen deepResults.compact := by
    rw [isResults_compact_iff hf ho, hdepth]
    exact fun h => Nat.lt_irrefl _ h.2
  have hstart : ∀ m e, ¬ StartsBadly .qwen [.plain .system "s", m] e := fun m =>
    not_startsBadly_iff.2 ⟨rfl, fun hgemma => by cases hgemma⟩
  refine ⟨⟨⟨List.cons_ne_nil _ _, by decide⟩, ?_⟩, by decide, by decide, by decide⟩
  exact segments_cons_eq_error.2 (.inr ⟨hstart _, turns_cons_eq_error.2 (.inl (.badToolResults rfl
    hbad))⟩)

end ChatRelay
