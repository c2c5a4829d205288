import ChatRelay.Proofs.Session.Conditions
import ChatRelay.Session.Client

/-!
# The life of the engine

Whatever steps a client takes, what it holds and the condition of the registry go together
(`State.Sound`, `step_keeps`). So the engine is there until a shutdown, it is reset and closed once
when the session that had it is over, and nobody is told anything else (`steps_lifecycle`).
-/

namespace ChatRelay.Client

/-- Whether a client holds a session, with a stream or without. -/
def Hold.isSession : Hold → Bool
  | idle => false
  | session | stream _ => true

/-- The outcomes of requests to shut down that an answer tells of. -/
def Answer.outcomes : Answer → List ShutdownOutcome
  | ran _ o? _ => o?.toList
  | contended o _ => [o]
  | outcome o => [o]
  | _ => []

/-- The condition of the registry goes with what the client holds. -/
def State.Sound (st : State) : Prop :=
  if st.hold.isSession then st.registry.InSession else st.registry.Idle

theorem sound_session {st : State} (h : st.hold.isSession = true) :
    st.Sound ↔ st.registry.InSession := iff_of_eq (if_pos h)

theorem sound_idle {st : State} (h : st.hold.isSession = false) :
    st.Sound ↔ st.registry.Idle := iff_of_eq (if_neg (by simp [h]))

/-- The number of engines still to be released. -/
def State.left (st : State) : Nat := if st.registry.engine.isNone then 0 else 1

/-- What a step comes to: the state stays sound, and whoever is told to have released the engine has
done so. -/
structure Keeps (st : State) (result : Result) : Prop where
  sound : result.toState.Sound
  released : result.answer.outcomes.count .releasedNow + result.toState.left ≤ st.left

variable {st : State} {r : Registry}

/-- A step that leaves the registry alone. -/
theorem keeps_of_registry {result : Result} (h : result.toState.Sound)
    (hregistry : result.registry = st.registry) (houtcomes : result.answer.outcomes = []) :
    Keeps st result := by
  refine ⟨h, ?_⟩
  rw [houtcomes, State.left, State.left, hregistry]
  exact Nat.le_of_eq (Nat.zero_add _)

/-- Where an engine is left to be released, a step that does not tell of a release may do anything
with it. -/
theorem keeps_of_engine {result : Result} (hengine : st.registry.engine.isNone = false)
    (h : result.toState.Sound) (houtcomes : .releasedNow ∉ result.answer.outcomes) :
    Keeps st result := by
  refine ⟨h, ?_⟩
  rw [List.count_eq_zero.2 houtcomes, State.left, State.left, hengine]
  split <;> simp

theorem stepSession_keeps (h : r.InSession) (s : Step) :
    Keeps ⟨r, .session⟩ (stepSession r s) := by
  cases s with
  | stream messages tools =>
    exact keeps_of_engine h.engine (h.stream messages tools) List.not_mem_nil
  | endSession => exact keeps_of_engine h.engine (h.endSession false) List.not_mem_nil
  | breakDown => exact keeps_of_engine h.engine (h.endSession true) List.not_mem_nil
  | _ => exact keeps_of_registry h rfl rfl

theorem stepStream_keeps (h : r.InSession) (stream : EventStream) (s : Step) :
    Keeps ⟨r, .stream stream⟩ (stepStream r stream s) := by
  cases s with
  | breakDown => exact keeps_of_engine h.engine (h.endSession true) List.not_mem_nil
  | _ => exact keeps_of_registry h rfl rfl

theorem stepIdle_run_keeps (h : r.Idle) (request : GenerateRequest) (reactions : Reactions) :
    Keeps ⟨r, .idle⟩ (stepIdle r (.run request reactions)) := by
  obtain ⟨hidle, hcancelled, houtcome⟩ := h.run request reactions
  have hnone : .releasedNow ∉ (stepIdle r (.run request reactions)).answer.outcomes := by
    intro hmem
    have := houtcome .releasedNow (Option.mem_toList.1 hmem)
    split at this <;> cases this
  cases hengine : r.engine.isNone with
  | false => exact keeps_of_engine hengine hidle hnone
  | true =>
    refine ⟨hidle, ?_⟩
    have hgone : (r.run request reactions).registry.engine.isNone = true :=
      hidle.released.trans (hcancelled (h.released.symm.trans hengine))
    have hleft : (stepIdle r (.run request reactions)).toState.left = 0 := by
      simp [State.left, stepIdle, hgone]
    rw [List.count_eq_zero.2 hnone, hleft]
    exact Nat.zero_le _

theorem stepIdle_begin_keeps (h : r.Idle) : Keeps ⟨r, .idle⟩ (stepIdle r .begin) := by
  rcases h.begin_cases with ⟨-, hbegin⟩ | ⟨hcancelled, r', hbegin, hsession⟩
  · simp only [stepIdle, hbegin]
    exact keeps_of_registry h rfl rfl
  · simp only [stepIdle, hbegin]
    exact keeps_of_engine (h.released.trans hcancelled) hsession List.not_mem_nil

/-- Of two sessions that contend while the relay is shut down, the first releases the engine and the
second is turned away. -/
theorem stepIdle_contend_keeps (h : r.Idle) : Keeps ⟨r, .idle⟩ (stepIdle r .contend) := by
  rcases h.begin_cases with ⟨-, hbegin⟩ | ⟨hcancelled, r', hbegin, hsession⟩
  · simp only [stepIdle, contend, hbegin]
    exact keeps_of_registry h rfl rfl
  · have hended := hsession.cancel.endSession false
    have hflag : (r'.cancel.2.endSession false).cancelled = true :=
      Registry.cancelled_endSession r'.cancel.2 false
    obtain ⟨-, hidle, -⟩ := hended.beginLocked hflag
    simp only [stepIdle, contend, hbegin, hsession.requestShutdown]
    exact keeps_of_engine (h.released.trans hcancelled) hidle (by simp [quietly, Answer.outcomes])

theorem stepIdle_keeps (h : r.Idle) (s : Step) : Keeps ⟨r, .idle⟩ (stepIdle r s) := by
  cases s with
  | run request reactions => exact stepIdle_run_keeps h request reactions
  | begin => exact stepIdle_begin_keeps h
  | contend => exact stepIdle_contend_keeps h
  | _ => exact keeps_of_registry h rfl rfl

/-- A shutdown is told to have released the engine only if it was there, and then it is gone. -/
theorem shutdown_keeps (h : st.Sound) :
    Keeps st
      (quietly (.outcome st.registry.requestShutdown.1) st.registry.requestShutdown.2 st.hold) := by
  cases hhold : st.hold.isSession with
  | true =>
    have hsession := (sound_session hhold).1 h
    rw [hsession.requestShutdown]
    exact keeps_of_engine hsession.engine ((sound_session (by exact hhold)).2 hsession.cancel)
      (by simp [quietly, Answer.outcomes])
  | false =>
    obtain ⟨houtcome, hafter, hgone⟩ := ((sound_idle hhold).1 h).requestShutdown
    refine ⟨(sound_idle (by exact hhold)).2 hafter, ?_⟩
    have hleft : (quietly (.outcome st.registry.requestShutdown.1)
        st.registry.requestShutdown.2 st.hold).toState.left = 0 := by
      simp [State.left, quietly, hgone]
    rw [hleft, Nat.add_zero, houtcome]
    cases hengine : st.registry.engine <;> simp [quietly, Answer.outcomes, State.left, hengine]

/-- Every step but setting the flag by itself keeps the registry sound. -/
theorem step_keeps (h : st.Sound) {s : Step} (hs : s ≠ .cancel) : Keeps st (step st s) := by
  obtain ⟨r, hold⟩ := st
  -- A step that fits any hold first: no other hold has it.
  cases hanywhere : anywhere ⟨r, hold⟩ s with
  | some result =>
    cases s with
    | shutdown =>
      obtain rfl := Option.some.inj hanywhere
      exact shutdown_keeps h
    | status =>
      obtain rfl := Option.some.inj hanywhere
      exact keeps_of_registry h rfl rfl
    | cancel => exact absurd rfl hs
    | _ => cases hanywhere
  | none =>
    rw [step, hanywhere]
    cases hold with
    | idle => exact stepIdle_keeps h s
    | session => exact stepSession_keeps h s
    | stream stream => exact stepStream_keeps h stream s

/-! ### Whole runs -/

/-- The state after steps. -/
def after : State → List Step → State
  | st, [] => st
  | st, s :: rest => after (step st s).toState rest

/-- All that steps tell of requests to shut down. -/
def outcomes (st : State) (script : List Step) : List ShutdownOutcome :=
  (steps st script).flatMap fun result => result.answer.outcomes

theorem steps_keep {script : List Step} (h : st.Sound) (hscript : .cancel ∉ script) :
    (after st script).Sound ∧
      (outcomes st script).count .releasedNow + (after st script).left ≤ st.left := by
  -- What is told and what is left to release add up to no more than they did a step before.
  induction script generalizing st with
  | nil => exact ⟨h, by simp [outcomes, steps, after]⟩
  | cons s rest ih =>
    obtain ⟨hne, hrest⟩ := not_or.1 fun hmem => hscript (List.mem_cons.2 hmem)
    have hstep := step_keeps h (Ne.symm hne)
    obtain ⟨hsound, hcount⟩ := ih hstep.sound hrest
    refine ⟨hsound, ?_⟩
    have hfirst := hstep.released
    have hcons : outcomes st (s :: rest) =
        (step st s).answer.outcomes ++ outcomes (step st s).toState rest := rfl
    rw [hcons, List.count_append, after]
    omega

/-- What is promised of the engine in a state of a client. -/
structure Lifecycle (st : State) : Prop where
  /-- Resetting and closing go together, and happen once at most. -/
  resets : st.registry.usage.resets = st.registry.usage.closes
  closes : st.registry.usage.closes ≤ 1
  /-- The engine is reset after all replies, and then closed. -/
  order : ∃ prompts : List (List TokenId),
    st.registry.usage.calls.reverse =
      prompts.map .generate ++ if st.registry.engine.isNone then [.reset, .close] else []
  released : st.registry.engine = none ↔ st.registry.usage.closes = 1
  flagged : st.registry.engine = none → st.registry.cancelled = true
  generating : st.registry.generating = true ↔ st.hold.isSession = true
  /-- After a shutdown, an engine that is not in use is closed. -/
  closed : st.registry.cancelled = true → st.hold.isSession = false →
    st.registry.usage.closes = 1
  shutdown : st.registry.requestShutdown.1 =
    if st.hold.isSession then .deferred
    else if st.registry.engine.isSome then .releasedNow else .alreadyReleased
  /-- The consumer of a run is told the same. -/
  running : st.hold.isSession = false → ∀ request reactions,
    ∀ o ∈ (st.registry.run request reactions).outcome,
      o = if st.registry.cancelled then .alreadyReleased else .deferred
  rejected : st.registry.cancelled = true → st.registry.begin.1 = .error .shuttingDown
  begins : st.registry.begin.1 ≠ .error .engineReleased
  streams : st.hold.isSession = true → ∀ messages tools,
    st.registry.prepare messages tools ≠ .error .engineReleased

theorem begin_of_cancelled (h : r.cancelled = true) : r.begin.1 = .error .shuttingDown := by
  simp [Registry.begin, h]

theorem begin_ne_of_engine (h : r.engine.isNone = false) :
    r.begin.1 ≠ .error .engineReleased := by
  cases hengine : r.engine with
  | none => simp [hengine] at h
  | some engine =>
    cases hcancelled : r.cancelled <;>
      simp [Registry.begin, Registry.beginLocked, hcancelled, hengine]

theorem lifecycle_of_session (hhold : st.hold.isSession = true) (h : st.registry.InSession) :
    Lifecycle st where
  resets := h.accounted.resets.trans h.accounted.closes.symm
  closes := by simp [h.accounted.closes, h.engine]
  order := h.accounted
  released := by simp [h.accounted.closes, h.engine, ← Option.isNone_iff_eq_none]
  flagged := by simp [← Option.isNone_iff_eq_none, h.engine]
  generating := by simp [h.generating, hhold]
  closed := by simp [hhold]
  shutdown := by rw [h.requestShutdown, if_pos hhold]
  running := by simp [hhold]
  rejected := begin_of_cancelled
  begins := begin_ne_of_engine h.engine
  streams := fun _ => h.prepare_ne

theorem lifecycle_of_idle (hhold : st.hold.isSession = false) (h : st.registry.Idle) :
    Lifecycle st where
  resets := h.accounted.resets.trans h.accounted.closes.symm
  closes := by
    rw [h.accounted.closes]
    split <;> omega
  order := h.accounted
  released := by
    rw [h.accounted.closes, ← Option.isNone_iff_eq_none]
    cases st.registry.engine.isNone <;> simp
  flagged := by
    rw [← Option.isNone_iff_eq_none, h.released]
    exact id
  generating := by simp [h.generating, hhold]
  closed := by
    intro hcancelled _
    rw [h.accounted.closes, h.released, if_pos hcancelled]
  shutdown := by
    have hnot : ¬ st.hold.isSession = true := by simp [hhold]
    rw [h.requestShutdown.1, if_neg hnot]
  running := by
    intro _ request reactions
    exact (h.run request reactions).2.2
  rejected := begin_of_cancelled
  begins := by
    rcases h.begin_cases with ⟨-, hbegin⟩ | ⟨-, r', hbegin, -⟩ <;> simp [hbegin]
  streams := by simp [hhold]

/-- Whatever a client does with a new registry, short of setting the flag without asking for a
shutdown, the engine is there as long as it is used, and then reset and closed once; and of all who
ask for a shutdown, one at most is told to have released it. -/
theorem steps_lifecycle (d : Dialect) (engine : Engine) (maxTokens : Nat) {script : List Step}
    (hscript : .cancel ∉ script) :
    Lifecycle (after ⟨.new d engine maxTokens, .idle⟩ script) ∧
      (outcomes ⟨.new d engine maxTokens, .idle⟩ script).count .releasedNow ≤ 1 := by
  have hstart : State.Sound ⟨.new d engine maxTokens, .idle⟩ :=
    Registry.idle_new d engine maxTokens
  obtain ⟨hsound, hcount⟩ := steps_keep hstart hscript
  refine ⟨?_, ?_⟩
  · cases hhold : (after ⟨.new d engine maxTokens, .idle⟩ script).hold.isSession with
    | true => exact lifecycle_of_session hhold ((sound_session hhold).1 hsound)
    | false => exact lifecycle_of_idle hhold ((sound_idle hhold).1 hsound)
  · have hleft : State.left ⟨.new d engine maxTokens, .idle⟩ = 1 := rfl
    omega

/-- An engine that replies with two letters. -/
def letters : Engine :=
  let v := Vocabulary.ofSpecials Grammar.qwen.controlTokens
  ⟨v.codec, .ofScript (v.encode "ab")⟩

/-- A run to its end, then a session during which the relay is shut down and that breaks down, and
what comes too late. -/
def breakingScript : List Step :=
  let messages : List Message := [⟨.system, "s", none⟩, ⟨.user, "u", none⟩]
  [.run ⟨messages, none⟩ .none, .begin, .stream messages [], .next, .shutdown, .breakDown, .begin,
    .shutdown, .run ⟨messages, none⟩ ⟨none, some 1, none, some 1⟩]

theorem steps_lifecycle_breaking :
    .cancel ∉ breakingScript ∧
      Lifecycle (after ⟨.new .qwen letters 9, .idle⟩ breakingScript) ∧
      (outcomes ⟨.new .qwen letters 9, .idle⟩ breakingScript).count .releasedNow ≤ 1 ∧
      outcomes ⟨.new .qwen letters 9, .idle⟩ breakingScript =
        [.deferred, .alreadyReleased, .alreadyReleased] ∧
      (after ⟨.new .qwen letters 9, .idle⟩ breakingScript).registry.usage.invocations = 2 ∧
      (after ⟨.new .qwen letters 9, .idle⟩ breakingScript).registry.usage.closes = 1 := by
  have hscript : .cancel ∉ breakingScript := by simp [breakingScript]
  obtain ⟨hlife, hcount⟩ := steps_lifecycle .qwen letters 9 hscript
  exact ⟨hscript, hlife, hcount, by decide +kernel, by decide +kernel, by decide +kernel⟩

end ChatRelay.Client
