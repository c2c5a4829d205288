import ChatRelay.Proofs.Session.Uninterrupted

/-!
# Replies that a shutdown interrupts

A consumer may ask for a shutdown at any event of a reply. Up to that event nothing tells it from a
consumer that leaves there; after it no token is handed on any more, and all that follows is what
there was still to be said of the last token, and the end of the classifier (`cut_consume`). When
the session ends, it releases the engine (`run_interrupted`).
-/

namespace ChatRelay

/-- What follows the tokens of a reply in which a shutdown is asked for at the `k`th event from
their first on. If the engine fails next, that is an event only if it is the one at which the
shutdown is asked for. -/
def Generation.cutEnd (g : Generation) (k : Nat) (ts : List TokenId) : List StreamEvent :=
  if g.failAt = some (g.drawn + ts.length + 1) then
    if k ≤ (g.eventsOf ts).length then []
    else [.failure (Generation.failure (g.drawn + ts.length + 1)).message]
  else g.setup.events (g.after ts).state.finish.2

namespace Generation

variable {g : Generation} {due : List TokenId}

/-- The last draw, before the shutdown is asked for or after it. -/
theorem events_eq_cutEnd (h : g.Asking) (k : Nat) (hlast : g.Last (k == 0) due) :
    (g.pull (k == 0) due.head?).events = g.cutEnd k [] := by
  rw [events_of_last h hlast, cutEnd]
  cases k <;> rfl

theorem cutEnd_cons (g : Generation) (k : Nat) (t : TokenId) (ts : List TokenId) :
    g.cutEnd k (t :: ts) = (g.after [t]).cutEnd (k - (g.eventsOf [t]).length) ts := by
  have hdrawn : (g.after [t]).drawn + ts.length = g.drawn + (t :: ts).length := by
    show g.drawn + 1 + ts.length = g.drawn + (ts.length + 1)
    omega
  have hlength : (g.eventsOf (t :: ts)).length =
      (g.eventsOf [t]).length + ((g.after [t]).eventsOf ts).length := by
    rw [eventsOf_cons, List.length_append]
  have hlate : k ≤ (g.eventsOf (t :: ts)).length ↔
      k - (g.eventsOf [t]).length ≤ ((g.after [t]).eventsOf ts).length := by omega
  rw [cutEnd, cutEnd, hdrawn, after_cons]
  simp only [hlate]
  rfl

end Generation

section
variable {g : Generation} {run : Run} {j : Nat} {due : List TokenId} {queue : List StreamEvent}
  {generated : Nat}

/-- A reply that is cut after `t` tokens: so many have been handed on to a consumer that leaves at
an event, and no more are to one that asks for a shutdown there. -/
structure Cut (g : Generation) (run : Run) (j : Nat) (due : List TokenId)
    (queue : List StreamEvent) (generated t : Nat) : Prop where
  le : t ≤ due.length
  left : ((Reactions.leaving j).consumer.consume due (some g) queue generated run).2 = generated + t
  seen : ((Reactions.leaving j).consumer.consume due (some g) queue generated run).1.received =
    run.received ++
      (queue ++ (g.eventsOf (due.take t) ++
        g.cutEnd (j - (run.count + queue.length)) (due.take t))).take (j - run.count)
  handed : ((Reactions.shutting j).consumer.consume due (some g) queue generated run).2 =
    generated + t
  saw : run.Saw
    (queue ++ (g.eventsOf (due.take t) ++ g.cutEnd (j - (run.count + queue.length)) (due.take t)))
    run.registry.cancel.2
    ((Reactions.shutting j).consumer.consume due (some g) queue generated run).1

/-- The event is among those that wait. -/
theorem cut_of_waiting (h : g.Asking) (hsession : run.registry.InSession)
    (hbefore : run.count < j) (hafter : j ≤ run.count + queue.length) :
    Cut g run j due queue generated 0 := by
  have hleaving := Run.deliver_leaving hbefore hafter
  have hshutting := Run.deliver_shutting hsession hbefore hafter
  have hlast := Generation.last_of_cancelled h due
  have hflag : (Reactions.shutting j).consumer.cancelled (run.receiveAll queue).defer = true := rfl
  constructor
  · exact Nat.zero_le _
  · rw [Consumer.consume_of_gone hleaving, Nat.add_zero]
  · rw [Consumer.consume_of_gone hleaving, List.take_append_of_le_length (by omega)]
    exact (run.saw_receiveAll _).received
  · rw [Consumer.consume_last hshutting (hflag ▸ hlast), Nat.add_zero]
  · have hk : j - (run.count + queue.length) = 0 := by omega
    have hevents : (g.pull true due.head?).events = g.cutEnd 0 [] :=
      Generation.events_eq_cutEnd h 0 hlast
    rw [Consumer.consume_last hshutting (hflag ▸ hlast), hflag, hk, hevents]
    rw [Run.deliver_of_quiet]
    · exact ((run.saw_receiveAll queue).defer.tell _).trans (Run.saw_receiveAll _ _)
    · intro n hlt _
      have hcount : run.count + queue.length < n := hlt
      exact Reactions.quiet_shutting (by omega)

/-- Before the event, neither consumer does anything. -/
theorem deliver_before (hlate : run.count + queue.length < j) :
    (Reactions.leaving j).consumer.deliver run queue = (run.receiveAll queue, true) ∧
      (Reactions.shutting j).consumer.deliver run queue = (run.receiveAll queue, true) := by
  refine ⟨Run.deliver_of_quiet ?_, Run.deliver_of_quiet ?_⟩
  · intro n _ hle
    exact Reactions.quiet_leaving (by omega)
  · intro n _ hle
    exact Reactions.quiet_shutting (by omega)

/-- The event is among those of the last draw. -/
theorem cut_of_last (h : g.Asking) (hsession : run.registry.InSession)
    (hfree : run.registry.cancelled = false) (hlast : g.Last false due)
    (hlate : run.count + queue.length < j)
    (hreach : j ≤ run.count + queue.length + (g.rest due).length) :
    Cut g run j due queue generated 0 := by
  obtain ⟨hleaving, hshutting⟩ := deliver_before hlate
  have hflag : (Reactions.shutting j).consumer.cancelled (run.receiveAll queue) = false := hfree
  have hflag' : (Reactions.leaving j).consumer.cancelled (run.receiveAll queue) = false := hfree
  obtain ⟨k, hk⟩ : ∃ k, j - (run.count + queue.length) = k + 1 :=
    Nat.exists_eq_add_one.2 (by omega)
  have hevents : (g.pull false due.head?).events = g.cutEnd (k + 1) [] :=
    Generation.events_eq_cutEnd h (k + 1) hlast
  rw [Generation.rest_of_last hlast, hevents] at hreach
  constructor
  · exact Nat.zero_le _
  · rw [Consumer.consume_last hleaving (hflag' ▸ hlast), Nat.add_zero]
  · have htake : (queue ++ (g.eventsOf [] ++ g.cutEnd (k + 1) [])).take (j - run.count) =
        queue ++ (g.cutEnd (k + 1) []).take (k + 1) := by
      have hleft : j - run.count - queue.length = k + 1 := by omega
      rw [List.take_append, List.take_of_length_le (by omega), hleft]
      rfl
    rw [Consumer.consume_last hleaving (hflag' ▸ hlast), hflag', hk, hevents]
    rw [Run.deliver_leaving (by exact hlate) (by exact hreach), List.take_zero, htake, ← hk]
    exact (((run.saw_receiveAll queue).tell _).trans (Run.saw_receiveAll _ _)).received
  · rw [Consumer.consume_last hshutting (hflag ▸ hlast), Nat.add_zero]
  · rw [Consumer.consume_last hshutting (hflag ▸ hlast), hflag, hk, hevents]
    rw [Run.deliver_shutting (by exact hsession) (by exact hlate) (by exact hreach)]
    exact (((run.saw_receiveAll queue).tell _).trans (Run.saw_receiveAll _ _)).defer

/-- A token that is handed on before the event. -/
theorem cut_of_token (h : g.Asking) (hfree : run.registry.cancelled = false)
    (hfail : g.failAt ≠ some (g.drawn + 1)) {t : TokenId} (ht : g.HandsOn false t) {n : Nat}
    (hlate : run.count + queue.length < j)
    (hcut : Cut (g.after [t]) ((run.receiveAll queue).tell (g.pull false (some t)).notices) j due
      (g.eventsOf [t]) (generated + 1) n) :
    Cut g run j (t :: due) queue generated (n + 1) := by
  obtain ⟨hleaving, hshutting⟩ := deliver_before hlate
  have hflag : (Reactions.shutting j).consumer.cancelled (run.receiveAll queue) = false := hfree
  have hflag' : (Reactions.leaving j).consumer.cancelled (run.receiveAll queue) = false := hfree
  have hqueue := (run.saw_receiveAll queue).tell (g.pull false (some t)).notices
  have hsplit : g.eventsOf (t :: due.take n) ++
      g.cutEnd (j - (run.count + queue.length)) (t :: due.take n) =
        g.eventsOf [t] ++ ((g.after [t]).eventsOf (due.take n) ++
          (g.after [t]).cutEnd (j - (run.count + queue.length + (g.eventsOf [t]).length))
            (due.take n)) := by
    have hevent : j - (run.count + queue.length) - (g.eventsOf [t]).length =
        j - (run.count + queue.length + (g.eventsOf [t]).length) := by omega
    rw [Generation.eventsOf_cons, Generation.cutEnd_cons, hevent, List.append_assoc]
  constructor
  · exact Nat.succ_le_succ hcut.le
  · rw [Consumer.consume_handsOn hleaving h hfail (hflag' ▸ ht), hflag']
    exact hcut.left.trans (by omega)
  · rw [Consumer.consume_handsOn hleaving h hfail (hflag' ▸ ht), hflag', List.take_succ_cons, hsplit]
    have htake : j - run.count - queue.length = j - (run.count + queue.length) := by omega
    rw [List.take_append, List.take_of_length_le (by omega), htake, ← List.append_assoc,
      ← hqueue.received]
    exact hcut.seen
  · rw [Consumer.consume_handsOn hshutting h hfail (hflag ▸ ht), hflag]
    exact hcut.handed.trans (by omega)
  · rw [Consumer.consume_handsOn hshutting h hfail (hflag ▸ ht), hflag, List.take_succ_cons, hsplit]
    exact hqueue.trans hcut.saw

/-- Every reply that gets to the event is cut. -/
theorem cut_consume (h : g.Asking) (hsession : run.registry.InSession)
    (hfree : run.registry.cancelled = false) (hbefore : run.count < j)
    (hreach : j ≤ run.count + queue.length + (g.rest due).length) :
    ∃ t, Cut g run j due queue generated t := by
  -- By induction on the tokens: each is handed on unless the event has come before it.
  induction due generalizing g run queue generated with
  | nil =>
    by_cases hwaiting : j ≤ run.count + queue.length
    · exact ⟨0, cut_of_waiting h hsession hbefore hwaiting⟩
    · rcases Generation.last_or_token h [] with hlast | ⟨-, t, rest, heq, -⟩
      · exact ⟨0, cut_of_last h hsession hfree hlast (by omega) hreach⟩
      · cases heq
  | cons t due ih =>
    by_cases hwaiting : j ≤ run.count + queue.length
    · exact ⟨0, cut_of_waiting h hsession hbefore hwaiting⟩
    · rcases Generation.last_or_token h (t :: due) with hlast | ⟨hfail, u, rest, heq, ht⟩
      · exact ⟨0, cut_of_last h hsession hfree hlast (by omega) hreach⟩
      · obtain ⟨rfl, rfl⟩ := List.cons.inj heq
        have hcount : ((run.receiveAll queue).tell (g.pull false (some t)).notices).count =
            run.count + queue.length := rfl
        rw [Generation.rest_of_token h hfail ht, List.length_append] at hreach
        obtain ⟨n, hcut⟩ : ∃ n, Cut (g.after [t])
            ((run.receiveAll queue).tell (g.pull false (some t)).notices) j due (g.eventsOf [t])
            (generated + 1) n :=
          ih (h.after ht) hsession hfree (by omega) (by omega)
        exact ⟨n + 1, cut_of_token h hfree hfail ht (by omega) hcut⟩

end

/-! ### Whole runs -/

/-- The events of a reply in which a shutdown is asked for at the `j`th event, when `t` tokens have
been handed on. They end with the end of the classifier, unless the engine has failed or is about to
fail. -/
def cutEvents (s : Classifier.Setup) (prompt script : List TokenId) (failAt : Option Nat)
    (j t : Nat) : List StreamEvent :=
  let events := s.events (s.pushAll (.initial prompt) (script.take t)).2
  if failAt = some (t + 1) then
    if j ≤ events.length then events
    else events ++ [.failure (Generation.failure (t + 1)).message]
  else s.events (s.reply prompt (script.take t))

theorem eventsOf_append_cutEnd (s : Classifier.Setup) (prompt : List TokenId)
    {script : List TokenId} (failAt : Option Nat) (limit j : Nat) {t : Nat}
    (ht : t ≤ script.length) :
    (Generation.fresh s prompt failAt limit).eventsOf (script.take t) ++
        (Generation.fresh s prompt failAt limit).cutEnd j (script.take t) =
      cutEvents s prompt script failAt j t := by
  have hlength : (Generation.fresh s prompt failAt limit).drawn + (script.take t).length = t := by
    show 0 + (script.take t).length = t
    rw [List.length_take]
    omega
  rw [Generation.cutEnd, cutEvents, hlength]
  show _ ++ (if failAt = some (t + 1) then _ else _) = _
  split
  · split
    · next hk => exact (List.append_nil _).trans (if_pos hk).symm
    · next hk => exact (if_neg hk).symm
  · simp only [Classifier.Setup.reply, Classifier.Setup.events, List.filterMap_append]
    rfl

/-- Nothing after the event tells of an error. -/
theorem error_cutEvents (s : Classifier.Setup) (prompt script : List TokenId) (failAt : Option Nat)
    (j t : Nat) : ∀ e ∈ (cutEvents s prompt script failAt j t).drop j, e.error = false := by
  intro e he
  rw [cutEvents] at he
  split at he
  · split at he
    · exact Classifier.Setup.error_events _ e (List.mem_of_mem_drop he)
    · next hk =>
      have hnone : (s.events (s.pushAll (.initial prompt) (script.take t)).2 ++
          [StreamEvent.failure (Generation.failure (t + 1)).message]).length ≤ j := by
        rw [List.length_append, List.length_singleton]
        omega
      rw [List.drop_eq_nil_of_le hnone] at he
      cases he
  · exact Classifier.Setup.error_events _ e (List.mem_of_mem_drop he)

/-- The events of a request in which a shutdown is asked for at the `j`th event, when `t` tokens have
been handed on. -/
def interruptedEvents (d : Dialect) (codec : TokenCodec) (request : GenerateRequest)
    (script : List TokenId) (failAt : Option Nat) (j t : Nat) : List StreamEvent :=
  match preparation d codec request with
  | .error e => [.failure e.message]
  | .ok (prompt, s) => cutEvents s prompt script failAt j t

namespace Registry

variable {r : Registry} {codec : TokenCodec} {script : List TokenId} {failAt : Option Nat} {j : Nat}
  {request : GenerateRequest}

/-- What is left of a registry when the relay has shut down: no reply is under way, and the engine
is gone, reset once and closed once. -/
structure ShutDown (r : Registry) : Prop where
  generating : r.generating = false
  engine : r.engine = none
  resets : r.usage.resets = 1
  closes : r.usage.closes = 1

theorem shutDown_ended {run : Run} (hsession : r.InSession) (h : run.registry = r.cancel.2) :
    run.ended.registry.ShutDown := by
  have hidle : run.ended.registry.Idle := by
    rw [Run.ended, h]
    exact hsession.cancel.endSession _
  have hgone : run.ended.registry.engine.isNone = true := by
    rw [hidle.released, Run.ended, cancelled_endSession, h]
    rfl
  refine ⟨hidle.generating, Option.isNone_iff_eq_none.1 hgone, ?_, ?_⟩
  · rw [hidle.accounted.resets, if_pos hgone]
  · rw [hidle.accounted.closes, if_pos hgone]

theorem Idle.inUse (h : r.Idle) (hcancelled : r.cancelled = false) {engine : Engine}
    (hengine : r.engine = some engine) : r.inUse.InSession := by
  rcases h.begin_cases with ⟨hflag, -⟩ | ⟨-, r', hbegin, hsession⟩
  · rw [hcancelled] at hflag
    cases hflag
  · rw [begin_eq hcancelled hengine] at hbegin
    obtain ⟨-, rfl⟩ := Prod.mk.inj hbegin
    exact hsession

/-- A run in which a shutdown is asked for at the `j`th event: up to there it is the run of a
consumer that leaves, and after it no token is handed on and no error told. -/
structure Interrupted (r : Registry) (request : GenerateRequest) (j : Nat)
    (events : List StreamEvent) : Prop where
  seen : (r.run request (.leaving j)).received = events.take j
  handed : (r.serve request (.shutting j)).2 = (r.serve request (.leaving j)).2
  received : (r.run request (.shutting j)).received = events
  errors : ∀ e ∈ events.drop j, e.error = false
  shutDown : (r.run request (.shutting j)).registry.ShutDown

theorem interrupted_of_error (hidle : r.Idle) (hcancelled : r.cancelled = false)
    (hengine : r.engine = some ⟨codec, ⟨script, failAt, true, none⟩⟩) {e : SessionError}
    (he : preparation r.dialect codec request = .error e) :
    r.Interrupted request 1 [.failure e.message] := by
  have hsession := hidle.inUse hcancelled hengine
  have hleaving := serve_of_error hcancelled hengine he (.leaving 1)
  have hshutting := serve_of_error hcancelled hengine he (.shutting 1)
  have hcount : (r.opened request r.inUse).count = 0 := rfl
  have hreach : 1 ≤ (r.opened request r.inUse).count + [StreamEvent.failure e.message].length := by
    rw [List.length_singleton]
    omega
  rw [Run.deliver_leaving (by omega) hreach] at hleaving
  rw [Run.deliver_shutting hsession (by omega) hreach] at hshutting
  constructor
  · rw [← serve_fst, hleaving]
    rfl
  · rw [hleaving, hshutting]
  · rw [← serve_fst, hshutting]
    rfl
  · simp
  · rw [← serve_fst, hshutting]
    exact shutDown_ended hsession rfl

theorem interrupted_of_ok (hidle : r.Idle) (hcancelled : r.cancelled = false)
    (hengine : r.engine = some ⟨codec, ⟨script, failAt, true, none⟩⟩) {prompt : List TokenId}
    {s : Classifier.Setup} (hs : preparation r.dialect codec request = .ok (prompt, s))
    (hpos : 1 ≤ j) (hreach : j ≤ (replyEvents s prompt script failAt r.maxTokens).length) :
    r.Interrupted request j
      (cutEvents s prompt script failAt j (r.serve request (.leaving j)).2) := by
  have hsession : (r.replying prompt).InSession := by
    have hstream := (hidle.inUse hcancelled hengine).stream request.messages request.tools
    rwa [stream_of_ok hengine hs] at hstream
  have hasking := Generation.asking_fresh s prompt failAt r.maxTokens
  rw [← Generation.rest_fresh] at hreach
  have hcount : (r.opened request (r.replying prompt)).count = 0 := rfl
  obtain ⟨t, hcut⟩ : ∃ t, Cut (.fresh s prompt failAt r.maxTokens)
      (r.opened request (r.replying prompt)) j script [] 0 t :=
    cut_consume hasking hsession hcancelled hpos (by rw [hcount, List.length_nil]; omega)
  have hleaving := serve_of_ok hcancelled hengine hs (.leaving j)
  have hshutting := serve_of_ok hcancelled hengine hs (.shutting j)
  have ht : (r.serve request (.leaving j)).2 = t := by
    rw [hleaving]
    exact hcut.left.trans (Nat.zero_add t)
  have hevents := eventsOf_append_cutEnd s prompt failAt r.maxTokens j hcut.le
  have hreceived : (r.run request (.shutting j)).received = cutEvents s prompt script failAt j t := by
    rw [← serve_fst, hshutting, ← hevents]
    exact hcut.saw.received
  rw [ht]
  constructor
  · rw [← serve_fst, hleaving, ← hevents]
    exact hcut.seen
  · rw [ht, hshutting]
    exact hcut.handed.trans (Nat.zero_add t)
  · exact hreceived
  · exact error_cutEvents s prompt script failAt j t
  · rw [← serve_fst, hshutting]
    exact shutDown_ended hsession hcut.saw.registry

/-- A shutdown at any event of a reply ends it there: no token is handed on after it, no error is
told after it, the events are those of the tokens handed on so far, and the engine is released when
the session ends. -/
theorem run_interrupted (hidle : r.Idle)
    (hengine : r.engine = some ⟨codec, ⟨script, failAt, true, none⟩⟩) (hpos : 1 ≤ j)
    (hreach : j ≤ (r.run request .none).received.length) :
    r.Interrupted request j
      (interruptedEvents r.dialect codec request script failAt j
        (r.serve request (.leaving j)).2) := by
  have hcancelled : r.cancelled = false := by
    rw [← hidle.released, hengine]
    rfl
  obtain ⟨hreceived, -, -⟩ := serve_none hcancelled hengine request
  rw [← serve_fst, hreceived, plainEvents] at hreach
  rw [interruptedEvents]
  cases hprepared : preparation r.dialect codec request with
  | error e =>
    rw [hprepared] at hreach
    have hone : j ≤ 1 := hreach
    obtain rfl : j = 1 := by omega
    exact interrupted_of_error hidle hcancelled hengine hprepared
  | ok prepared =>
    obtain ⟨prompt, s⟩ := prepared
    rw [hprepared] at hreach
    exact interrupted_of_ok hidle hcancelled hengine hprepared hpos hreach

/-- A shutdown right before the engine would fail: nobody hears of the failure. -/
theorem run_interrupted_failing :
    (new .qwen (spelling (some 2)) 9).Idle ∧
      (new .qwen (spelling (some 2)) 9).engine = some (spelling (some 2)) ∧
      1 ≤ ((new .qwen (spelling (some 2)) 9).run greeting .none).received.length ∧
      (new .qwen (spelling (some 2)) 9).Interrupted greeting 1 [.plain "a"] ∧
      ((new .qwen (spelling (some 2)) 9).serve greeting (.leaving 1)).2 = 1 := by
  have hidle := idle_new .qwen (spelling (some 2)) 9
  have hreach : 1 ≤ ((new .qwen (spelling (some 2)) 9).run greeting .none).received.length := by
    decide +kernel
  have hinterrupted := run_interrupted hidle rfl (Nat.le_refl 1) hreach
  have htokens : ((new .qwen (spelling (some 2)) 9).serve greeting (.leaving 1)).2 = 1 := by
    decide +kernel
  have hevents : interruptedEvents .qwen (spelling (some 2)).codec greeting
      (spelling (some 2)).generator.script (some 2) 1 1 = [.plain "a"] := by
    decide +kernel
  refine ⟨hidle, rfl, hreach, ?_, htokens⟩
  rw [← hevents, ← htokens]
  exact hinterrupted

end Registry

end ChatRelay
