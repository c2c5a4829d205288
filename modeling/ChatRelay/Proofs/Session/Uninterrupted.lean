import ChatRelay.Proofs.Session.Consuming

/-!
# Replies that nobody interrupts

A request whose consumer takes every event comes to a plain function of the conversation, the tools,
the tokens of the engine, the token at which it fails and the limit (`plainEvents`): no queue, no
lazy draws and no question whether to stop. `run_uninterrupted` says so of a whole run.
-/

namespace ChatRelay

/-! ### The plain function -/

/-- The events of a reply after a prompt. -/
def replyEvents (s : Classifier.Setup) (prompt script : List TokenId) (failAt : Option Nat)
    (limit : Nat) : List StreamEvent :=
  let n := min (min script.length limit) (script.idxOf s.endOfTurn)
  match failAt.filter fun k => 1 ≤ k ∧ k ≤ n + 1 with
  | some k =>
    s.events (s.pushAll (.initial prompt) (script.take (k - 1))).2 ++
      [.failure (Generation.failure k).message]
  | none => s.events (s.reply prompt (script.take n))

/-- The events of a request. -/
def plainEvents (d : Dialect) (codec : TokenCodec) (request : GenerateRequest)
    (script : List TokenId) (failAt : Option Nat) (limit : Nat) : List StreamEvent :=
  match preparation d codec request with
  | .error e => [.failure e.message]
  | .ok (prompt, s) => replyEvents s prompt script failAt limit

/-! ### The rest of a reply is plain -/

namespace Generation

/-- The rest of a reply before its first token is all of it. -/
theorem rest_fresh (s : Classifier.Setup) (prompt script : List TokenId) (failAt : Option Nat)
    (limit : Nat) :
    (fresh s prompt failAt limit).rest script = replyEvents s prompt script failAt limit := by
  have hasking := asking_fresh s prompt failAt limit
  have hon : min (min script.length limit) (script.idxOf s.endOfTurn) =
      (fresh s prompt failAt limit).handedOn script := rfl
  rw [replyEvents, hon]
  generalize hn : (fresh s prompt failAt limit).handedOn script = n
  cases hfailing : failAt.filter fun k => 1 ≤ k ∧ k ≤ n + 1 with
  | some k =>
    obtain ⟨hk, hbound⟩ := Option.filter_eq_some_iff.1 hfailing
    obtain ⟨hpos, hle⟩ := of_decide_eq_true hbound
    have hfail : (fresh s prompt failAt limit).failAt =
        some ((fresh s prompt failAt limit).drawn + (k - 1) + 1) := by
      show failAt = some (0 + (k - 1) + 1)
      rw [hk]
      congr 1
      omega
    rw [rest_eq_failure hasking (i := k - 1) (by omega) hfail]
    show _ ++ [StreamEvent.failure (failure (0 + (k - 1) + 1)).message] = _
    rw [show 0 + (k - 1) + 1 = k by omega]
    rfl
  | none =>
    rw [rest_eq_end hasking, hn]
    · simp only [Classifier.Setup.reply, Classifier.Setup.events, List.filterMap_append]
      rfl
    · intro i hi hfail
      have hbound := Option.filter_eq_none_iff.1 hfailing _ hfail
      exact hbound (decide_eq_true ⟨by omega, by show 0 + i + 1 ≤ _; omega⟩)

end Generation

/-! ### A consumer that takes everything -/

theorem deliver_none (run : Run) (es : List StreamEvent) :
    Reactions.none.consumer.deliver run es = (run.receiveAll es, true) :=
  Run.deliver_of_quiet fun n _ _ => Reactions.quiet_none n

variable {g : Generation} {run : Run}

theorem consume_none_last (hcancelled : run.registry.cancelled = false) {due : List TokenId}
    (hlast : g.Last false due) (queue : List StreamEvent) (generated : Nat) :
    run.Saw (queue ++ g.rest due) run.registry
        (Reactions.none.consumer.consume due (some g) queue generated run).1 ∧
      (Reactions.none.consumer.consume due (some g) queue generated run).2 = generated := by
  have hflag : Reactions.none.consumer.cancelled (run.receiveAll queue) = false := hcancelled
  rw [Consumer.consume_last (deliver_none run queue) (hflag ▸ hlast), hflag, deliver_none,
    Generation.rest_of_last hlast]
  exact ⟨((run.saw_receiveAll queue).tell _).trans (Run.saw_receiveAll _ _), rfl⟩

/-- All events of a reply reach a consumer that takes everything; it leaves the registry alone, and
no more tokens are handed on than are allowed. -/
theorem consume_none (h : g.Asking) (hcancelled : run.registry.cancelled = false)
    (due : List TokenId) (queue : List StreamEvent) (generated : Nat) :
    run.Saw (queue ++ g.rest due) run.registry
        (Reactions.none.consumer.consume due (some g) queue generated run).1 ∧
      (Reactions.none.consumer.consume due (some g) queue generated run).2 ≤
        generated + (g.maxTokens - g.drawn) := by
  induction due generalizing g queue generated run with
  | nil =>
    rcases Generation.last_or_token h [] with hlast | ⟨-, t, rest, heq, -⟩
    · obtain ⟨hsaw, hcount⟩ := consume_none_last hcancelled hlast queue generated
      exact ⟨hsaw, by omega⟩
    · cases heq
  | cons t due ih =>
    rcases Generation.last_or_token h (t :: due) with hlast | ⟨hfail, u, rest, heq, ht⟩
    · obtain ⟨hsaw, hcount⟩ := consume_none_last hcancelled hlast queue generated
      exact ⟨hsaw, by omega⟩
    · obtain ⟨rfl, rfl⟩ := List.cons.inj heq
      have hflag : Reactions.none.consumer.cancelled (run.receiveAll queue) = false := hcancelled
      have hqueue := (run.saw_receiveAll queue).tell (g.pull false (some t)).notices
      have hnext : ((run.receiveAll queue).tell (g.pull false (some t)).notices).registry.cancelled =
          false := hcancelled
      obtain ⟨hsaw, hcount⟩ := ih (h.after ht) hnext (g.eventsOf [t]) (generated + 1)
      have hlimit : g.drawn < g.maxTokens := ht.2.1
      have hdrawn : (g.after [t]).maxTokens - (g.after [t]).drawn = g.maxTokens - (g.drawn + 1) := rfl
      rw [Consumer.consume_handsOn (deliver_none run queue) h hfail (hflag ▸ ht), hflag,
        Generation.rest_of_token h hfail ht]
      refine ⟨hqueue.trans hsaw, Nat.le_trans hcount ?_⟩
      omega

/-! ### Whole runs -/

/-- Only the last event can tell of an error. -/
theorem error_plainEvents (d : Dialect) (codec : TokenCodec) (request : GenerateRequest)
    (script : List TokenId) (failAt : Option Nat) (limit : Nat) :
    ∀ e ∈ (plainEvents d codec request script failAt limit).dropLast, e.error = false := by
  intro e he
  rw [plainEvents] at he
  split at he
  · cases he
  · rw [replyEvents] at he
    split at he
    · rw [List.dropLast_concat] at he
      exact Classifier.Setup.error_events _ e he
    · exact Classifier.Setup.error_events _ e (List.dropLast_subset _ he)

namespace Registry

variable {r : Registry} {codec : TokenCodec} {script : List TokenId} {failAt : Option Nat}

/-- A session after which nobody has asked for a shutdown leaves the engine's calls alone. -/
theorem usage_ended {run : Run} (h : run.registry.cancelled = false) :
    run.ended.registry.usage = run.registry.usage := by
  simp [Run.ended, endSession, unlock, h]

theorem serve_none (hcancelled : r.cancelled = false)
    (hengine : r.engine = some ⟨codec, ⟨script, failAt, true, none⟩⟩) (request : GenerateRequest) :
    (r.serve request .none).1.received =
        plainEvents r.dialect codec request script failAt r.maxTokens ∧
      (r.serve request .none).1.registry.usage =
        (match preparation r.dialect codec request with
        | .error _ => r.usage
        | .ok (prompt, _) => r.usage.add (.generate prompt)) ∧
      (r.serve request .none).2 ≤ r.maxTokens := by
  rw [plainEvents]
  cases hprepared : preparation r.dialect codec request with
  | error e =>
    rw [serve_of_error hcancelled hengine hprepared, deliver_none]
    exact ⟨rfl, usage_ended hcancelled, Nat.zero_le _⟩
  | ok prepared =>
    obtain ⟨prompt, s⟩ := prepared
    have hfree : (r.opened request (r.replying prompt)).registry.cancelled = false := hcancelled
    have hasking := Generation.asking_fresh s prompt failAt r.maxTokens
    obtain ⟨hsaw, hcount⟩ := consume_none hasking hfree script [] 0
    rw [serve_of_ok hcancelled hengine hprepared]
    refine ⟨?_, ?_, ?_⟩
    · exact hsaw.received.trans (Generation.rest_fresh s prompt script failAt r.maxTokens)
    · refine (usage_ended (hsaw.registry ▸ hcancelled)).trans ?_
      rw [hsaw.registry]
      rfl
    · refine Nat.le_trans hcount ?_
      show 0 + (r.maxTokens - 0) ≤ r.maxTokens
      omega

/-- What a request whose consumer takes everything comes to, if the relay is not shutting down: the
events are a plain function of what goes in; the engine is asked for a reply exactly if there is a
prompt and a classifier; no more tokens are handed on to the classifier than are allowed; and only
the last event can tell of an error. -/
theorem run_uninterrupted (hcancelled : r.cancelled = false)
    (hengine : r.engine = some ⟨codec, ⟨script, failAt, true, none⟩⟩) (request : GenerateRequest) :
    (r.run request .none).received =
        plainEvents r.dialect codec request script failAt r.maxTokens ∧
      (r.run request .none).registry.usage =
        (match preparation r.dialect codec request with
        | .error _ => r.usage
        | .ok (prompt, _) => r.usage.add (.generate prompt)) ∧
      (r.serve request .none).2 ≤ r.maxTokens ∧
      ∀ e ∈ (r.run request .none).received.dropLast, e.error = false := by
  obtain ⟨hreceived, husage, hcount⟩ := serve_none hcancelled hengine request
  rw [serve_fst] at hreceived husage
  refine ⟨hreceived, husage, hcount, ?_⟩
  rw [hreceived]
  exact error_plainEvents _ _ _ _ _ _

/-- An engine that replies with the letters of `ab` and the end of the turn, and may fail. -/
def spelling (failAt : Option Nat) : Engine :=
  let v := Vocabulary.ofSpecials Grammar.qwen.controlTokens
  let endOfTurn := (v.codec.specialTokenId Grammar.qwen.endOfTurn).toOption.getD 0
  ⟨v.codec, ⟨v.encode "ab" ++ [endOfTurn] ++ v.encode "c", failAt, true, none⟩⟩

/-- A request with nothing in it. -/
def greeting : GenerateRequest := ⟨[⟨.system, "s", none⟩, ⟨.user, "u", none⟩], none⟩

/-- An engine that fails one token after the last it would have handed on. -/
theorem run_uninterrupted_failing :
    (new .qwen (spelling (some 3)) 9).cancelled = false ∧
      (new .qwen (spelling (some 3)) 9).engine = some (spelling (some 3)) ∧
      ((new .qwen (spelling (some 3)) 9).run greeting .none).received =
        [.plain "a", .plain "b", .failure "Generation failed: decode failed at token 3"] ∧
      ((new .qwen (spelling (some 3)) 9).run greeting .none).registry.usage.invocations = 1 ∧
      ((new .qwen (spelling (some 3)) 9).serve greeting .none).2 ≤ 9 := by
  obtain ⟨hreceived, husage, hcount, -⟩ :=
    run_uninterrupted (r := new .qwen (spelling (some 3)) 9) rfl rfl greeting
  rw [hreceived, husage]
  exact ⟨rfl, rfl, by decide +kernel, by decide +kernel, hcount⟩

end Registry

end ChatRelay
