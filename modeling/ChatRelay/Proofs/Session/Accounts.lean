import ChatRelay.Session.Registry

/-!
# What the engine is asked for

Of the registry's operations only two call the engine: a stream asks it for a reply, and `release`
resets and closes it. `Accounted` says what the calls come to at any time: replies first and, once
the engine is gone, one reset and one close after them. Both operations keep it, and all others
leave the engine and its calls alone.
-/

namespace ChatRelay.Registry

variable {r : Registry}

/-! ### What the single actions change -/

@[simp] theorem engine_lock (r : Registry) : r.lock.engine = r.engine := rfl

@[simp] theorem cancelled_lock (r : Registry) : r.lock.cancelled = r.cancelled := rfl

@[simp] theorem busy_lock (r : Registry) : r.lock.busy = true := rfl

@[simp] theorem engine_unlock (r : Registry) (unwinding : Bool) :
    (r.unlock unwinding).engine = r.engine := rfl

@[simp] theorem cancelled_unlock (r : Registry) (unwinding : Bool) :
    (r.unlock unwinding).cancelled = r.cancelled := rfl

@[simp] theorem generating_unlock (r : Registry) (unwinding : Bool) :
    (r.unlock unwinding).generating = r.generating := rfl

@[simp] theorem busy_unlock (r : Registry) (unwinding : Bool) :
    (r.unlock unwinding).busy = false := rfl

@[simp] theorem engine_release (r : Registry) : r.release.engine = none := by
  unfold release
  split
  · assumption
  · rfl

@[simp] theorem cancelled_release (r : Registry) : r.release.cancelled = r.cancelled := by
  unfold release
  split <;> rfl

@[simp] theorem generating_release (r : Registry) : r.release.generating = r.generating := by
  unfold release
  split <;> rfl

@[simp] theorem busy_release (r : Registry) : r.release.busy = r.busy := by
  unfold release
  split <;> rfl

theorem release_of_none (h : r.engine = none) : r.release = r := by
  simp [release, h]

theorem stream_frame (r : Registry) (messages : List Message) (tools : List ToolDefinition) :
    (r.stream messages tools).2.busy = r.busy ∧ (r.stream messages tools).2.engine = r.engine ∧
      (r.stream messages tools).2.cancelled = r.cancelled := by
  unfold stream
  split <;> exact ⟨rfl, rfl, rfl⟩

/-! ### Accounts -/

/-- The calls to the engine are replies and, once it is released, a reset and a close. -/
def Accounted (r : Registry) : Prop :=
  ∃ prompts : List (List TokenId),
    r.usage.calls.reverse =
      prompts.map .generate ++ if r.engine.isNone then [.reset, .close] else []

theorem accounted_new (d : Dialect) (engine : Engine) (maxTokens : Nat) :
    (new d engine maxTokens).Accounted := ⟨[], rfl⟩

/-- What leaves the engine and its calls alone leaves the accounts alone. -/
theorem Accounted.congr {r' : Registry} (h : r.Accounted) (hengine : r'.engine = r.engine)
    (husage : r'.usage = r.usage) : r'.Accounted := by
  unfold Accounted
  rw [hengine, husage]
  exact h

theorem Accounted.release (h : r.Accounted) : r.release.Accounted := by
  cases he : r.engine with
  | none =>
    rw [release_of_none he]
    exact h
  | some engine =>
    obtain ⟨prompts, hcalls⟩ := h
    refine ⟨prompts, ?_⟩
    simp only [he, Option.isNone_some, Bool.false_eq_true, if_false, List.append_nil] at hcalls
    simp [Registry.release, he, Usage.add, hcalls]

/-- A stream asks for at most one reply, and only of an engine that is there. -/
theorem Accounted.stream (h : r.Accounted) (messages : List Message)
    (tools : List ToolDefinition) : (r.stream messages tools).2.Accounted := by
  unfold Registry.stream
  split
  · exact h
  · next engine prompt setup hprepare =>
    have he : r.engine.isNone = false := by
      cases he : r.engine with
      | none => simp [prepare, he] at hprepare
      | some _ => rfl
    obtain ⟨prompts, hcalls⟩ := h
    refine ⟨prompts ++ [prompt], ?_⟩
    rw [he] at hcalls
    simp [Usage.add, hcalls, he]

/-! ### Counting -/

/-- The engine is reset and closed once if it is released, and not before. -/
theorem Accounted.count (h : r.Accounted) {call : EngineCall} (hcall : call.prompt? = none) :
    r.usage.calls.count call = if r.engine.isNone then 1 else 0 := by
  obtain ⟨prompts, hcalls⟩ := h
  have hprompts : (prompts.map EngineCall.generate).count call = 0 := by
    rw [List.count_eq_zero]
    intro hmem
    obtain ⟨prompt, -, rfl⟩ := List.mem_map.1 hmem
    cases hcall
  rw [← List.count_reverse, hcalls, List.count_append, hprompts]
  cases call with
  | generate prompt => cases hcall
  | _ => cases r.engine.isNone <;> rfl

theorem Accounted.resets (h : r.Accounted) :
    r.usage.resets = if r.engine.isNone then 1 else 0 := h.count rfl

theorem Accounted.closes (h : r.Accounted) :
    r.usage.closes = if r.engine.isNone then 1 else 0 := h.count rfl

end ChatRelay.Registry
