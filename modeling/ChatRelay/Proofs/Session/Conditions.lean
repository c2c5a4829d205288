import ChatRelay.Proofs.Session.Accounts
import ChatRelay.Session.Run

/-!
# Between sessions and during one

A registry is always in one of two conditions: `Idle` between sessions and `InSession` during one.
Every operation leads from one to the other as it should, also a session that breaks down and a
request to shut down while it runs. A whole run leads from `Idle` to `Idle`, whatever its consumer
does (`Idle.run`).
-/

namespace ChatRelay

namespace Registry

/-! ### The two conditions -/

/-- A registry between sessions. The engine is gone exactly if the flag is set. -/
structure Idle (r : Registry) : Prop where
  busy : r.busy = false
  generating : r.generating = false
  released : r.engine.isNone = r.cancelled
  accounted : r.Accounted

/-- A registry during a session. The engine is there, whether or not the flag is set. -/
structure InSession (r : Registry) : Prop where
  busy : r.busy = true
  generating : r.generating = true
  engine : r.engine.isNone = false
  accounted : r.Accounted

variable {r : Registry}

theorem idle_new (d : Dialect) (engine : Engine) (maxTokens : Nat) :
    (new d engine maxTokens).Idle := ⟨rfl, rfl, rfl, accounted_new d engine maxTokens⟩

/-- Who releases the engine and lets go of the lock leaves the registry idle. -/
theorem idle_release_unlock (r : Registry) (hgenerating : r.generating = false)
    (hcancelled : r.cancelled = true) (h : r.Accounted) (unwinding : Bool) :
    (r.release.unlock unwinding).Idle :=
  ⟨rfl, by simpa using hgenerating, by simp [hcancelled], h.release.congr rfl rfl⟩

/-- A session begins unless the relay is shutting down. -/
theorem Idle.begin_cases (h : r.Idle) :
    (r.cancelled = true ∧ r.begin = (.error .shuttingDown, r)) ∨
      (r.cancelled = false ∧ ∃ r', r.begin = (.ok (), r') ∧ r'.InSession) := by
  cases hcancelled : r.cancelled with
  | true => exact .inl ⟨rfl, by simp [begin, hcancelled]⟩
  | false =>
    obtain ⟨engine, he⟩ : ∃ engine, r.engine = some engine := by
      rw [← Option.isSome_iff_exists, ← Option.isNone_eq_false_iff, h.released, hcancelled]
    refine .inr ⟨rfl, { r.lock with generating := true }, ?_, ?_⟩
    · simp [begin, beginLocked, hcancelled, he]
    · exact ⟨rfl, rfl, by simp [lock, he], h.accounted.congr rfl rfl⟩

theorem endSession_eq (r : Registry) (unwinding : Bool) :
    r.endSession unwinding =
      if r.cancelled then ({ r with generating := false } : Registry).release.unlock unwinding
      else ({ r with generating := false } : Registry).unlock unwinding := by
  unfold Registry.endSession
  cases r.cancelled <;> rfl

theorem cancelled_endSession (r : Registry) (unwinding : Bool) :
    (r.endSession unwinding).cancelled = r.cancelled := by
  rw [endSession_eq]
  split <;> simp

/-- However a session ends, the registry is idle after it. -/
theorem InSession.endSession (h : r.InSession) (unwinding : Bool) :
    (r.endSession unwinding).Idle := by
  have haccounted : Accounted { r with generating := false } := h.accounted.congr rfl rfl
  rw [endSession_eq]
  split
  · next hcancelled =>
    exact idle_release_unlock { r with generating := false } rfl hcancelled haccounted unwinding
  · next hcancelled =>
    have hfalse : r.cancelled = false := by simpa using hcancelled
    exact ⟨rfl, rfl, h.engine.trans hfalse.symm, haccounted.congr rfl rfl⟩

/-- What a session has is not seen by a shutdown, but the flag is set. -/
theorem InSession.requestShutdown (h : r.InSession) :
    r.requestShutdown = (.deferred, r.cancel.2) := by
  simp [Registry.requestShutdown, tryLock, cancel, h.busy]

theorem InSession.cancel (h : r.InSession) : r.cancel.2.InSession :=
  ⟨h.busy, h.generating, h.engine, h.accounted.congr rfl rfl⟩

theorem InSession.stream (h : r.InSession) (messages : List Message)
    (tools : List ToolDefinition) : (r.stream messages tools).2.InSession := by
  have haccounted := h.accounted.stream messages tools
  unfold Registry.stream at haccounted ⊢
  split at haccounted
  · exact h
  · exact ⟨h.busy, h.generating, h.engine, haccounted⟩

/-- A session has the engine as long as it lasts. -/
theorem InSession.prepare_ne (h : r.InSession) (messages : List Message)
    (tools : List ToolDefinition) : r.prepare messages tools ≠ .error .engineReleased := by
  obtain ⟨engine, he⟩ : ∃ engine, r.engine = some engine := by
    rw [← Option.isSome_iff_exists, ← Option.isNone_eq_false_iff]
    exact h.engine
  rw [prepare, he]
  simp only
  split
  · simp
  · simp
  split
  · simp
  split
  · simp
  · simp

theorem requestShutdown_of_free (h : r.busy = false) :
    r.requestShutdown =
      (if r.engine.isSome then .releasedNow else .alreadyReleased,
        r.cancel.2.lock.release.unlock false) := by
  have hbusy : r.cancel.2.busy = false := h
  unfold Registry.requestShutdown tryLock
  rw [hbusy, if_neg Bool.false_ne_true]
  cases r.cancel.2.poisoned <;> rfl

/-- An idle engine is released at once. -/
theorem Idle.requestShutdown (h : r.Idle) :
    r.requestShutdown.1 = (if r.engine.isSome then .releasedNow else .alreadyReleased) ∧
      r.requestShutdown.2.Idle ∧ r.requestShutdown.2.engine = none := by
  rw [requestShutdown_of_free h.busy]
  have haccounted : r.cancel.2.lock.Accounted := h.accounted.congr rfl rfl
  exact ⟨rfl, idle_release_unlock r.cancel.2.lock h.generating rfl haccounted false, by simp⟩

theorem beginLocked_of_cancelled (h : r.cancelled = true) :
    r.beginLocked = (.error .shuttingDown, r.lock.release.unlock false) := if_pos h

/-- A session that waited for the engine while the relay was shut down is turned away. -/
theorem Idle.beginLocked (h : r.Idle) (hcancelled : r.cancelled = true) :
    r.beginLocked.1 = .error .shuttingDown ∧ r.beginLocked.2.Idle ∧
      r.beginLocked.2.engine = none := by
  rw [beginLocked_of_cancelled hcancelled]
  have haccounted : r.lock.Accounted := h.accounted.congr rfl rfl
  exact ⟨rfl, idle_release_unlock r.lock h.generating hcancelled haccounted false, by simp⟩

end Registry

/-! ### Running a request -/

section
variable {σ : Type} {c : Consumer σ} {P : σ → Prop}

theorem Consumer.deliver_preserves (htake : ∀ world e, P world → P (c.take world e).1)
    (es : List StreamEvent) {world : σ} (h : P world) : P (c.deliver world es).1 := by
  induction es generalizing world with
  | nil => exact h
  | cons e es ih =>
    have hnext := htake world e h
    rw [Consumer.deliver]
    split
    · next next heq =>
      rw [heq] at hnext
      exact ih hnext
    · next next heq =>
      rw [heq] at hnext
      exact hnext

/-- What holds of a world that a consumer takes events in holds after all events. -/
theorem Consumer.consume_preserves (htake : ∀ world e, P world → P (c.take world e).1)
    (hhear : ∀ world notices, P world → P (c.hear world notices)) (due : List TokenId)
    (generation : Option Generation) (queue : List StreamEvent) (generated : Nat) {world : σ}
    (h : P world) : P (c.consume due generation queue generated world).1 := by
  induction due generalizing generation queue generated world with
  | nil =>
    have hqueue := Consumer.deliver_preserves htake queue h
    unfold Consumer.consume
    split
    · next next heq =>
      rw [heq] at hqueue
      exact hqueue
    · next next heq =>
      rw [heq] at hqueue
      cases generation with
      | none => exact hqueue
      | some g => exact Consumer.deliver_preserves htake _ (hhear _ _ hqueue)
  | cons token due ih =>
    have hqueue := Consumer.deliver_preserves htake queue h
    unfold Consumer.consume
    split
    · next next heq =>
      rw [heq] at hqueue
      exact hqueue
    · next next heq =>
      rw [heq] at hqueue
      cases generation with
      | none => exact hqueue
      | some g => exact ih _ _ _ (hhear _ _ hqueue)

end

namespace Run

/-- A run whose registry is in a condition, and whose consumer was told of no outcome but one. -/
structure Keeps (K : Registry → Prop) (outcome : ShutdownOutcome) (run : Run) : Prop where
  registry : K run.registry
  outcome : ∀ o ∈ run.outcome, o = outcome

section
variable {K : Registry → Prop} {outcome : ShutdownOutcome} {run : Run}

theorem Keeps.askShutdown
    (hshutdown : ∀ r, K r → r.requestShutdown.1 = outcome ∧ K r.requestShutdown.2)
    (h : run.Keeps K outcome) : run.askShutdown.Keeps K outcome := by
  obtain ⟨houtcome, hregistry⟩ := hshutdown run.registry h.registry
  refine ⟨hregistry, ?_⟩
  intro o ho
  obtain rfl : run.registry.requestShutdown.1 = o := Option.some.inj ho
  exact houtcome

theorem Keeps.cancel (hcancel : ∀ r, K r → K r.cancel.2) (h : run.Keeps K outcome) :
    run.cancel.Keeps K outcome :=
  ⟨hcancel run.registry h.registry, h.outcome⟩

/-- A consumer keeps what shutting down and cancelling keep. -/
theorem Keeps.take (hshutdown : ∀ r, K r → r.requestShutdown.1 = outcome ∧ K r.requestShutdown.2)
    (hcancel : ∀ r, K r → K r.cancel.2) (reactions : Reactions) (e : StreamEvent)
    (h : run.Keeps K outcome) : (run.take reactions e).1.Keeps K outcome := by
  have hreceived : (run.receive e).Keeps K outcome := ⟨h.registry, h.outcome⟩
  have hasked : Keeps K outcome
      (if reactions.shutdownAt = some (run.receive e).count then (run.receive e).askShutdown
      else run.receive e) := by
    split
    · exact hreceived.askShutdown hshutdown
    · exact hreceived
  unfold Run.take
  dsimp only
  generalize (if reactions.shutdownAt = some (run.receive e).count then (run.receive e).askShutdown
      else run.receive e) = asked at hasked ⊢
  have hcancelled : Keeps K outcome
      (if reactions.cancelAt = some (run.receive e).count then asked.cancel else asked) := by
    split
    · exact hasked.cancel hcancel
    · exact hasked
  split
  · exact ⟨hcancelled.registry, hcancelled.outcome⟩
  · exact hcancelled

/-- So do all events of a stream. -/
theorem Keeps.consume
    (hshutdown : ∀ r, K r → r.requestShutdown.1 = outcome ∧ K r.requestShutdown.2)
    (hcancel : ∀ r, K r → K r.cancel.2) (reactions : Reactions) (stream : EventStream)
    (h : run.Keeps K outcome) :
    Keeps K outcome
      (stream.consume ⟨Run.take reactions, Run.tell, fun run => run.registry.cancelled⟩ run).1 := by
  refine Consumer.consume_preserves ?_ ?_ _ _ _ _ h
  · intro run e hrun
    exact hrun.take hshutdown hcancel reactions e
  · intro run notices hrun
    exact ⟨hrun.registry, hrun.outcome⟩

end

end Run

namespace Registry

variable {r : Registry}

/-- After a run the registry is idle; and its consumer was told that the engine is still in use if
the run had begun, and that it is gone if not. -/
theorem Idle.run (h : r.Idle) (request : GenerateRequest) (reactions : Reactions) :
    (r.run request reactions).registry.Idle ∧
      (r.cancelled = true → (r.run request reactions).registry.cancelled = true) ∧
      ∀ o ∈ (r.run request reactions).outcome,
        o = if r.cancelled then .alreadyReleased else .deferred := by
  unfold Registry.run Registry.runFor
  rcases h.begin_cases with ⟨hcancelled, hbegin⟩ | ⟨hcancelled, r', hbegin, hsession⟩
  · rw [hbegin, hcancelled]
    have hkeeps : (Run.start r).Keeps (fun r => r.Idle ∧ r.cancelled = true) .alreadyReleased :=
      ⟨⟨h, hcancelled⟩, by simp [Run.start]⟩
    have htaken := hkeeps.take ?_ ?_ reactions (.failure SessionError.shuttingDown.message)
    · exact ⟨htaken.registry.1, fun _ => htaken.registry.2, htaken.outcome⟩
    · rintro r ⟨hidle, hflag⟩
      obtain ⟨houtcome, hafter, -⟩ := hidle.requestShutdown
      have hgone : r.engine = none := Option.isNone_iff_eq_none.1 (hidle.released.trans hflag)
      refine ⟨by rw [houtcome, hgone]; rfl, hafter, ?_⟩
      rw [requestShutdown_of_free hidle.busy]
      simp [Registry.cancel]
    · rintro r ⟨hidle, hflag⟩
      have hsame : r.cancel.2 = r := by
        obtain ⟨dialect, maxTokens, engine, cancelled, generating, busy, poisoned, usage⟩ := r
        obtain rfl : cancelled = true := hflag
        rfl
      rw [hsame]
      exact ⟨hidle, hflag⟩
  · rw [hbegin, hcancelled]
    have hstart : ((Run.start (r'.stream request.messages request.tools).2).tell
        (r'.promptNotices request.messages request.tools)).Keeps InSession .deferred :=
      ⟨hsession.stream request.messages request.tools, by simp [Run.start, Run.tell]⟩
    have hend := hstart.consume ?_ (fun r hr => hr.cancel) reactions
      (r'.stream request.messages request.tools).1
    · exact ⟨hend.registry.endSession _, by simp, hend.outcome⟩
    · intro r hr
      rw [hr.requestShutdown]
      exact ⟨rfl, hr.cancel⟩

end Registry

end ChatRelay
