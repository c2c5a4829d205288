import ChatRelay.Proofs.Session.Schedule

/-!
# Shutting down while others call

Whatever the callers of a registry do and in whichever order, the engine is reset and closed
together and once at most. Once the flag is set, somebody owes the release as long as the engine is
there (`Sound.owed`): a shutdown that is still to try the lock, or whoever has the lock and will
look at the flag before letting go. Only the end of a session that had looked too early lets go of
the lock without a release. So when all callers are done and no session is open, the engine is
closed, unless the lock was let go of like that last (`reachable_released_once`).
-/

namespace ChatRelay

/-! ### The lock -/

/-- The lock is taken by the one caller that has it, and free if there is none. -/
def Locked (busy : Bool) (stage : Nat → Stage) : Prop :=
  ∃ owner : Option Nat, busy = owner.isSome ∧ ∀ c, (stage c).holds = true ↔ owner = some c

namespace Locked

variable {busy : Bool} {stage : Nat → Stage} {c c' : Nat} {s : Stage}

theorem busy_of_holds (h : Locked busy stage) (hc : (stage c).holds = true) : busy = true := by
  obtain ⟨owner, hbusy, howner⟩ := h
  rw [hbusy, (howner c).1 hc]
  rfl

theorem unique (h : Locked busy stage) (hc : (stage c).holds = true)
    (hc' : (stage c').holds = true) : c = c' := by
  obtain ⟨owner, -, howner⟩ := h
  exact Option.some.inj (((howner c).1 hc).symm.trans ((howner c').1 hc'))

theorem free (h : Locked busy stage) (hnone : ∀ c, (stage c).holds = false) : busy = false := by
  obtain ⟨owner, hbusy, howner⟩ := h
  cases owner with
  | none => exact hbusy
  | some c =>
    have := (howner c).2 rfl
    rw [hnone c] at this
    cases this

/-- A move that neither takes the lock nor lets go of it. -/
theorem keep (h : Locked busy stage) (hs : s.holds = (stage c).holds) :
    Locked busy fun c' => if c' = c then s else stage c' := by
  obtain ⟨owner, hbusy, howner⟩ := h
  refine ⟨owner, hbusy, ?_⟩
  intro c'
  show (if c' = c then s else stage c').holds = true ↔ owner = some c'
  by_cases hc' : c' = c
  · rw [if_pos hc', hs, hc']
    exact howner c
  · rw [if_neg hc']
    exact howner c'

theorem take (h : Locked false stage) (hs : s.holds = true) :
    Locked true fun c' => if c' = c then s else stage c' := by
  refine ⟨some c, rfl, ?_⟩
  intro c'
  by_cases hc' : c' = c
  · simp [hc', hs]
  · have hfree : (stage c').holds = false := by
      cases hholds : (stage c').holds with
      | false => rfl
      | true => exact (h.busy_of_holds hholds).symm
    simp [hc', Ne.symm hc', hfree]

theorem letGo (h : Locked busy stage) (hc : (stage c).holds = true) (hs : s.holds = false) :
    Locked false fun c' => if c' = c then s else stage c' := by
  refine ⟨none, rfl, ?_⟩
  intro c'
  by_cases hc' : c' = c
  · simp [hc', hs]
  · have hfree : (stage c').holds ≠ true := fun hholds => hc' (h.unique hholds hc)
    simpa [hc'] using hfree

end Locked

/-! ### What a caller knows -/

/-- What holds of the registry while a caller is at a stage. -/
def Stage.Fits (r : Registry) : Stage → Prop
  | entering | active | clearing _ | looking _ | leaving true _ _ => r.engine.isNone = false
  | leaving false _ _ => r.engine.isNone = true
  | refusing | releasing _ | trying | stopping => r.cancelled = true
  | idle _ | arriving | waiting | checking | signalling => True

/-- The flag stays set, and the engine is out of reach of who does not have the lock. -/
theorem Stage.Fits.mono {r r' : Registry} {s : Stage} (h : s.Fits r)
    (hcancelled : r.cancelled = true → r'.cancelled = true)
    (hengine : s.holds = true → r'.engine = r.engine) : s.Fits r' := by
  cases s with
  | leaving overlooks unwinding reply =>
    cases overlooks <;> simpa [Fits, hengine rfl] using h
  | entering | active | clearing | looking => simpa [Fits, hengine rfl] using h
  | refusing | releasing | trying | stopping => exact hcancelled h
  | idle | arriving | waiting | checking | signalling => trivial

/-! ### What an action can do -/

/-- The actions by what they do to the registry: next to it stands whether the engine was overlooked
last, before the action and after it. -/
inductive Stage.Action (r : Registry) (s : Stage) (before : Bool) :
    Registry → Stage → Bool → Prop where
  /-- Neither the lock nor the flag nor the engine changes. -/
  | keep {r' : Registry} {s' : Stage} (hbusy : r'.busy = r.busy) (hengine : r'.engine = r.engine)
      (hcancelled : r'.cancelled = r.cancelled) (husage : r'.usage = r.usage)
      (hholds : s'.holds = s.holds) (hfits : s'.Fits r') (htried : s = trying → r.busy = true) :
      Action r s before r' s' before
  | take {s' : Stage} (hfree : r.busy = false) (hholds : s'.holds = true) (hfits : s'.Fits r.lock) :
      Action r s before r.lock s' before
  | release (hholder : s.holds = true) (hflag : r.cancelled = true) (unwinding : Bool)
      (reply : Reply) : Action r s before r.release (leaving false unwinding reply) before
  | signal (hstage : s = signalling) : Action r s before r.cancel.2 trying before
  /-- The engine is gone if it was not overlooked. -/
  | letGo (hholder : s.holds = true) (overlooked unwinding : Bool) (reply : Reply)
      (hengine : r.engine.isNone = !overlooked) :
      Action r s before (r.unlock unwinding) (idle reply) overlooked

/-- Every action is one of these, if the caller knows what it should. -/
theorem Stage.advance_action {r r' : Registry} {s s' : Stage} (before : Bool)
    (hflagged : r.engine.isNone = true → r.cancelled = true) (hfits : s.Fits r)
    (h : s.advance r = some (r', s')) : Action r s before r' s' (s.overlooks before) := by
  cases s with
  | idle last => cases h
  | active => cases h
  | arriving =>
    obtain ⟨rfl, rfl⟩ := Prod.mk.inj (Option.some.inj h)
    refine .keep rfl rfl rfl rfl ?_ ?_ (by simp)
    · split <;> rfl
    · split <;> trivial
  | waiting =>
    rw [advance] at h
    split at h
    · cases h
    · next hfree =>
      obtain ⟨rfl, rfl⟩ := Prod.mk.inj (Option.some.inj h)
      exact .take (by simpa using hfree) rfl trivial
  | checking =>
    obtain ⟨rfl, rfl⟩ := Prod.mk.inj (Option.some.inj h)
    refine .keep rfl rfl rfl rfl ?_ ?_ (by simp)
    · split <;> rfl
    · split
      · next hflag => exact hflag
      · next hflag =>
        -- An engine that is gone has been shut down, and the flag would be set.
        show r.engine.isNone = false
        cases hengine : r.engine.isNone with
        | false => rfl
        | true => exact absurd (hflagged hengine) hflag
  | refusing =>
    obtain ⟨rfl, rfl⟩ := Prod.mk.inj (Option.some.inj h)
    exact .release rfl hfits false _
  | entering =>
    rw [advance] at h
    split at h
    · next hengine => simp [Fits, hengine] at hfits
    · obtain ⟨rfl, rfl⟩ := Prod.mk.inj (Option.some.inj h)
      exact .keep rfl rfl rfl rfl rfl hfits (by simp)
  | clearing unwinding =>
    obtain ⟨rfl, rfl⟩ := Prod.mk.inj (Option.some.inj h)
    exact .keep rfl rfl rfl rfl rfl hfits (by simp)
  | looking unwinding =>
    obtain ⟨rfl, rfl⟩ := Prod.mk.inj (Option.some.inj h)
    refine .keep rfl rfl rfl rfl ?_ ?_ (by simp)
    · split <;> rfl
    · split
      · next hflag => exact hflag
      · exact hfits
  | releasing unwinding =>
    obtain ⟨rfl, rfl⟩ := Prod.mk.inj (Option.some.inj h)
    exact .release rfl hfits unwinding _
  | signalling =>
    obtain ⟨rfl, rfl⟩ := Prod.mk.inj (Option.some.inj h)
    exact .signal rfl
  | trying =>
    rw [advance, Registry.tryLock] at h
    cases hbusy : r.busy with
    | true =>
      rw [hbusy, if_pos rfl] at h
      obtain ⟨rfl, rfl⟩ := Prod.mk.inj (Option.some.inj h)
      exact .keep rfl rfl rfl rfl rfl trivial fun _ => hbusy
    | false =>
      have hstop : some (r.lock, stopping) = some (r', s') := by
        rw [← h, hbusy, if_neg Bool.false_ne_true]
        cases r.poisoned <;> rfl
      obtain ⟨rfl, rfl⟩ := Prod.mk.inj (Option.some.inj hstop)
      exact .take hbusy rfl hfits
  | stopping =>
    obtain ⟨rfl, rfl⟩ := Prod.mk.inj (Option.some.inj h)
    exact .release rfl hfits false _
  | leaving overlooks unwinding reply =>
    obtain ⟨rfl, rfl⟩ := Prod.mk.inj (Option.some.inj h)
    refine .letGo rfl overlooks unwinding reply ?_
    cases overlooks <;> exact hfits

namespace System

/-- What holds of a registry and its callers at any time. -/
structure Sound (σ : System) : Prop where
  locked : Locked σ.registry.busy σ.stage
  accounted : σ.registry.Accounted
  flagged : σ.registry.engine.isNone = true → σ.registry.cancelled = true
  fits : ∀ c, (σ.stage c).Fits σ.registry
  /-- Somebody owes the release of an engine that is to be shut down, unless it was overlooked. -/
  owed : σ.registry.cancelled = true → σ.registry.engine.isNone = false →
    (∃ c, σ.stage c = .trying) ∨ σ.registry.busy = true ∨ σ.overlooked = true
  /-- An engine that was overlooked is there until somebody takes the lock again. -/
  kept : σ.registry.busy = false → σ.overlooked = true → σ.registry.engine.isNone = false

theorem sound_new (d : Dialect) (engine : Engine) (maxTokens : Nat) :
    (new (.new d engine maxTokens)).Sound where
  locked := ⟨none, rfl, fun c => by simp [new, Stage.holds]⟩
  accounted := Registry.accounted_new d engine maxTokens
  flagged := by simp [new, Registry.new]
  fits := fun c => trivial
  owed := by simp [new, Registry.new]
  kept := by simp [new]

variable {σ : System} {c : Nat} {s : Stage}

/-- What everybody else knows stays true. -/
theorem fits_moveTo {r : Registry} (h : σ.Sound) (hs : s.Fits r)
    (hcancelled : σ.registry.cancelled = true → r.cancelled = true)
    (hengine : r.engine = σ.registry.engine ∨ (σ.stage c).holds = true) (c' : Nat) :
    ((σ.moveTo c s).stage c').Fits r := by
  by_cases hc' : c' = c
  · simpa [moveTo, hc'] using hs
  · have hother : (σ.moveTo c s).stage c' = σ.stage c' := if_neg hc'
    rw [hother]
    refine (h.fits c').mono hcancelled ?_
    intro hholds
    rcases hengine with hsame | hholder
    · exact hsame
    · exact absurd (h.locked.unique hholds hholder) hc'

/-- A move that takes no lock and lets go of none, and leaves the engine and the flag alone. -/
theorem Sound.keep {r : Registry} (h : σ.Sound) (hbusy : r.busy = σ.registry.busy)
    (hengine : r.engine = σ.registry.engine) (hcancelled : r.cancelled = σ.registry.cancelled)
    (haccounted : r.Accounted) (hholds : s.holds = (σ.stage c).holds) (hs : s.Fits r)
    (htried : σ.stage c = .trying → σ.registry.busy = true) :
    Sound { σ.moveTo c s with registry := r } where
  locked := hbusy ▸ h.locked.keep hholds
  accounted := haccounted
  flagged := by
    rw [hengine, hcancelled]
    exact h.flagged
  fits := fits_moveTo h hs (fun hflag => hcancelled.trans hflag) (.inl hengine)
  owed := by
    intro hflag hthere
    rw [hcancelled] at hflag
    rw [hengine] at hthere
    rcases h.owed hflag hthere with ⟨c', hc'⟩ | hbusy' | hover
    · by_cases hcc : c' = c
      · -- Who tried the lock in vain leaves the release to whoever has it.
        subst hcc
        exact .inr (.inl (hbusy.trans (htried hc')))
      · exact .inl ⟨c', by simpa [moveTo, hcc] using hc'⟩
    · exact .inr (.inl (hbusy.trans hbusy'))
    · exact .inr (.inr hover)
  kept := by
    rw [hbusy, hengine]
    exact h.kept

/-- A move that takes the lock. -/
theorem Sound.take (h : σ.Sound) (hfree : σ.registry.busy = false) (hholds : s.holds = true)
    (hs : s.Fits σ.registry.lock) : Sound { σ.moveTo c s with registry := σ.registry.lock } where
  locked := (hfree ▸ h.locked : Locked false σ.stage).take hholds
  accounted := h.accounted.congr rfl rfl
  flagged := h.flagged
  fits := fits_moveTo h hs id (.inl rfl)
  owed := fun _ _ => .inr (.inl rfl)
  kept := fun hbusy => by cases hbusy

/-- A move that lets go of the lock: if the engine is still there, it was overlooked. -/
theorem Sound.letGo (h : σ.Sound) (hholds : (σ.stage c).holds = true) (unwinding : Bool)
    (reply : Reply) {overlooks : Bool} (hengine : σ.registry.engine.isNone = !overlooks) :
    Sound
      { σ.moveTo c (.idle reply) with
        registry := σ.registry.unlock unwinding
        overlooked := overlooks } where
  locked := h.locked.letGo hholds rfl
  accounted := h.accounted.congr rfl rfl
  flagged := h.flagged
  fits := fits_moveTo h trivial id (.inl rfl)
  owed := by
    intro _ hthere
    have hover : overlooks = true := by
      have : (!overlooks) = false := hengine.symm.trans hthere
      simpa using this
    exact .inr (.inr hover)
  kept := by
    intro _ hover
    have hover' : overlooks = true := hover
    rw [hover'] at hengine
    exact hengine

/-- A move of who has the lock that releases the engine. -/
theorem Sound.release (h : σ.Sound) (hholder : (σ.stage c).holds = true)
    (hflag : σ.registry.cancelled = true) (unwinding : Bool) (reply : Reply) :
    Sound
      { σ.moveTo c (.leaving false unwinding reply) with registry := σ.registry.release } where
  locked := by
    show Locked σ.registry.release.busy _
    rw [Registry.busy_release]
    exact h.locked.keep hholder.symm
  accounted := h.accounted.release
  flagged := fun _ => by simpa using hflag
  fits := fits_moveTo h (by simp [Stage.Fits]) (by simp) (.inr hholder)
  owed := by simp
  kept := by
    intro hbusy
    have hfree : σ.registry.release.busy = false := hbusy
    rw [Registry.busy_release, h.locked.busy_of_holds hholder] at hfree
    cases hfree

/-- The move that sets the flag: the lock is still to be tried. -/
theorem Sound.signal (h : σ.Sound) (hstage : σ.stage c = .signalling) :
    Sound { σ.moveTo c .trying with registry := σ.registry.cancel.2 } where
  locked := h.locked.keep (by rw [hstage]; rfl)
  accounted := h.accounted.congr rfl rfl
  flagged := fun _ => rfl
  fits := fits_moveTo h rfl (fun _ => rfl) (.inl rfl)
  owed := fun _ _ => .inl ⟨c, by simp [moveTo]⟩
  kept := h.kept

/-- A move that only reads. -/
theorem Sound.read (h : σ.Sound) (hholds : s.holds = (σ.stage c).holds)
    (hs : s.Fits σ.registry) (htried : σ.stage c = .trying → σ.registry.busy = true) :
    (σ.moveTo c s).Sound :=
  h.keep rfl rfl rfl h.accounted hholds hs htried

theorem Sound.start (h : σ.Sound) {op : Operation} (hs : (σ.stage c).start op = some s) :
    (σ.moveTo c s).Sound := by
  have hfits := h.fits c
  cases hstage : σ.stage c with
  | idle last =>
    rw [hstage] at hs
    cases op with
    | begin =>
      obtain rfl := Option.some.inj hs
      exact h.read (by rw [hstage]; rfl) trivial (by simp [hstage])
    | endSession unwinding => cases hs
    | requestShutdown =>
      obtain rfl := Option.some.inj hs
      exact h.read (by rw [hstage]; rfl) trivial (by simp [hstage])
  | active =>
    rw [hstage] at hs hfits
    cases op with
    | begin => cases hs
    | endSession unwinding =>
      obtain rfl := Option.some.inj hs
      exact h.read (by rw [hstage]; rfl) hfits (by simp [hstage])
    | requestShutdown => cases hs
  | _ =>
    rw [hstage] at hs
    cases op <;> cases hs

/-- The system after an action of a caller. -/
theorem step_advance {σ' : System} (hm : σ.step c .advance = some σ') :
    ∃ r s, (σ.stage c).advance σ.registry = some (r, s) ∧
      σ' = { σ.moveTo c s with
        registry := r
        overlooked := (σ.stage c).overlooks σ.overlooked } := by
  obtain ⟨⟨r, s⟩, hadvance, rfl⟩ := Option.map_eq_some_iff.1 hm
  exact ⟨r, s, hadvance, rfl⟩

theorem Sound.advance (h : σ.Sound) {σ' : System} (hm : σ.step c .advance = some σ') :
    σ'.Sound := by
  obtain ⟨r, s, hadvance, rfl⟩ := step_advance hm
  have haction := Stage.advance_action σ.overlooked h.flagged (h.fits c) hadvance
  generalize (σ.stage c).overlooks σ.overlooked = after at haction ⊢
  cases haction with
  | keep hbusy hengine hcancelled husage hholds hfits htried =>
    exact h.keep hbusy hengine hcancelled (h.accounted.congr hengine husage) hholds hfits htried
  | take hfree hholds hfits => exact h.take hfree hholds hfits
  | release hholder hflag unwinding reply => exact h.release hholder hflag unwinding reply
  | signal hstage => exact h.signal hstage
  | letGo hholder overlooked unwinding reply hengine =>
    exact h.letGo hholder unwinding reply hengine

theorem Sound.stream (h : σ.Sound) (messages : List Message) (tools : List ToolDefinition) :
    Sound { σ with registry := (σ.registry.stream messages tools).2 } := by
  obtain ⟨hbusy, hengine, hcancelled⟩ := Registry.stream_frame σ.registry messages tools
  refine ⟨?_, h.accounted.stream messages tools, ?_, ?_, ?_, ?_⟩
  · rw [hbusy]
    exact h.locked
  · rw [hengine, hcancelled]
    exact h.flagged
  · intro c
    exact (h.fits c).mono (fun hflag => hcancelled.trans hflag) fun _ => hengine
  · rw [hbusy, hengine, hcancelled]
    exact h.owed
  · rw [hbusy, hengine]
    exact h.kept

/-- Every move of every caller keeps the system sound. -/
theorem Sound.step (h : σ.Sound) {m : Move} {σ' : System} (hm : σ.step c m = some σ') :
    σ'.Sound := by
  cases m with
  | start op =>
    obtain ⟨s, hs, rfl⟩ := Option.map_eq_some_iff.1 hm
    exact h.start hs
  | advance => exact h.advance hm
  | stream messages tools =>
    rw [System.step] at hm
    split at hm
    · obtain rfl := Option.some.inj hm
      exact h.stream messages tools
    · cases hm

/-- Every system that callers can lead a new registry to is sound. -/
theorem reachable_sound {d : Dialect} {engine : Engine} {maxTokens : Nat} {σ : System}
    (h : Reachable (.new d engine maxTokens) σ) : σ.Sound := by
  induction h with
  | new => exact sound_new d engine maxTokens
  | step _ c m hm ih => exact ih.step hm

/-! ### When all callers are done -/

theorem holds_of_isIdle {s : Stage} (h : s.isIdle = true) : s.holds = false := by
  cases s with
  | idle last => rfl
  | _ => cases h

/-- After a shutdown, when all callers are done and no session is open, the engine is there exactly
if it was overlooked. -/
theorem Sound.isNone_engine (h : σ.Sound) (hflag : σ.registry.cancelled = true)
    (hidle : ∀ c, (σ.stage c).isIdle = true) : σ.registry.engine.isNone = !σ.overlooked := by
  have hfree : σ.registry.busy = false := h.locked.free fun c => holds_of_isIdle (hidle c)
  cases hengine : σ.registry.engine.isNone with
  | false =>
    -- Nobody is left that could owe the release.
    rcases h.owed hflag hengine with ⟨c, hc⟩ | hbusy | hover
    · have := hidle c
      rw [hc] at this
      cases this
    · rw [hfree] at hbusy
      cases hbusy
    · simp [hover]
  | true =>
    cases hover : σ.overlooked with
    | false => rfl
    | true => exact absurd (h.kept hfree hover) (by simp [hengine])

/-- Whatever callers do with a new registry, the engine is reset and closed together, after all
replies and once at most. Once the flag is set, all callers are done and no session is open, this
has happened, unless the end of a session that had found the flag unset let go of the lock last. -/
theorem reachable_released_once {d : Dialect} {engine : Engine} {maxTokens : Nat} {σ : System}
    (h : Reachable (.new d engine maxTokens) σ) :
    (∃ prompts : List (List TokenId),
      σ.registry.usage.calls.reverse =
        prompts.map .generate ++ if σ.registry.engine.isNone then [.reset, .close] else []) ∧
      σ.registry.usage.resets = σ.registry.usage.closes ∧ σ.registry.usage.closes ≤ 1 ∧
      (σ.registry.cancelled = true → (∀ c, (σ.stage c).isIdle = true) → σ.overlooked = false →
        σ.registry.usage.resets = 1 ∧ σ.registry.usage.closes = 1) := by
  have hsound := reachable_sound h
  have hresets := hsound.accounted.resets
  have hcloses := hsound.accounted.closes
  refine ⟨hsound.accounted, hresets.trans hcloses.symm, ?_, ?_⟩
  · rw [hcloses]
    split <;> omega
  · intro hflag hidle hover
    have hgone : σ.registry.engine.isNone = true := by
      rw [hsound.isNone_engine hflag hidle, hover]
      rfl
    rw [hresets, hcloses, if_pos hgone]
    exact ⟨rfl, rfl⟩

/-! ### Schedules -/

/-- A registry whose engine says nothing. -/
def silent : Registry := .new .qwen ⟨(Vocabulary.ofSpecials []).codec, .ofScript []⟩ 1

/-- So many actions of a caller. -/
def actions (c n : Nat) : List (Nat × Move) := List.replicate n (c, .advance)

/-- The first caller begins a session; the second asks for a shutdown while it is open. -/
def openSession : List (Nat × Move) :=
  (0, .start .begin) :: actions 0 4 ++ (1, .start .requestShutdown) :: actions 1 2

/-- Then the first caller ends its session. -/
def honoured : List (Nat × Move) :=
  openSession ++ (0, .start (.endSession false)) :: actions 0 4

/-- The end of a session finds the flag unset, and before it lets go of the lock, another caller
asks for a shutdown and finds the lock taken. -/
def tooLate : List (Nat × Move) :=
  (0, .start .begin) :: actions 0 4 ++ (0, .start (.endSession false)) :: actions 0 2 ++
    (1, .start .requestShutdown) :: actions 1 2 ++ actions 0 1

theorem step_stage_other {σ σ' : System} {c c' : Nat} {m : Move} (hm : σ.step c m = some σ')
    (hc : c' ≠ c) : σ'.stage c' = σ.stage c' := by
  cases m with
  | start op =>
    obtain ⟨s, -, rfl⟩ := Option.map_eq_some_iff.1 hm
    exact if_neg hc
  | advance =>
    obtain ⟨r, s, -, rfl⟩ := step_advance hm
    exact if_neg hc
  | stream messages tools =>
    rw [System.step] at hm
    split at hm
    · obtain rfl := Option.some.inj hm
      rfl
    · cases hm

theorem run_stage_other {σ σ' : System} {schedule : List (Nat × Move)} {c : Nat}
    (hrun : σ.run schedule = some σ') (hc : ∀ move ∈ schedule, move.1 ≠ c) :
    σ'.stage c = σ.stage c := by
  induction schedule generalizing σ with
  | nil =>
    obtain rfl := Option.some.inj hrun
    rfl
  | cons move rest ih =>
    obtain ⟨next, hnext, hrest⟩ := Option.bind_eq_some_iff.1 hrun
    obtain ⟨hmove, hothers⟩ := List.forall_mem_cons.1 hc
    rw [ih hrest hothers, step_stage_other hnext (Ne.symm hmove)]

/-- What two callers leave: the flag is set, both are at such stages, the engine was closed so
often, and it was overlooked last or not. -/
def leaves (stages : Stage → Bool) (closes : Nat) (overlooked : Bool) (σ : System) : Bool :=
  σ.registry.cancelled && stages (σ.stage 0) && stages (σ.stage 1) &&
    σ.registry.usage.closes == closes && σ.overlooked == overlooked

/-- The moves of two callers, while nobody else calls. -/
theorem exists_of_run (stages : Stage → Bool) (closes : Nat) (overlooked : Bool)
    (schedule : List (Nat × Move)) (hcallers : ∀ move ∈ schedule, move.1 < 2)
    (hothers : stages (.idle .none) = true)
    (h : ((new silent).run schedule).any (leaves stages closes overlooked) = true) :
    ∃ σ, Reachable silent σ ∧ σ.registry.cancelled = true ∧ (∀ c, stages (σ.stage c) = true) ∧
      σ.registry.usage.closes = closes ∧ σ.overlooked = overlooked := by
  cases hrun : (new silent).run schedule with
  | none =>
    rw [hrun] at h
    cases h
  | some σ =>
    rw [hrun] at h
    simp only [Option.any_some, leaves, Bool.and_eq_true, beq_iff_eq] at h
    obtain ⟨⟨⟨⟨hflag, hzero⟩, hone⟩, hcloses⟩, hover⟩ := h
    refine ⟨σ, Reachable.new.run hrun, hflag, ?_, hcloses, hover⟩
    intro c
    match c with
    | 0 => exact hzero
    | 1 => exact hone
    | c + 2 =>
      have hstage : σ.stage (c + 2) = .idle .none := by
        refine run_stage_other hrun ?_
        intro move hmove
        have := hcallers move hmove
        omega
      rw [hstage]
      exact hothers

theorem reachable_released_once_honoured :
    ∃ σ, Reachable silent σ ∧ σ.registry.cancelled = true ∧ (∀ c, (σ.stage c).isIdle = true) ∧
      σ.overlooked = false ∧ σ.registry.usage.resets = 1 ∧ σ.registry.usage.closes = 1 := by
  obtain ⟨σ, hreach, hflag, hidle, -, hover⟩ :=
    exists_of_run Stage.isIdle 1 false honoured (by decide) rfl (by decide)
  obtain ⟨hresets, hcloses⟩ := (reachable_released_once hreach).2.2.2 hflag hidle hover
  exact ⟨σ, hreach, hflag, hidle, hover, hresets, hcloses⟩

/-- A shutdown leaves the engine to a session that is open; and it leaves it also to the end of a
session that has looked at the flag already, and then nobody releases it. -/
theorem released_by_nobody :
    (∃ σ, Reachable silent σ ∧ σ.registry.cancelled = true ∧
      (∀ c, (σ.stage c).isFinished = true) ∧ σ.registry.usage.closes = 0) ∧
    ∃ σ, Reachable silent σ ∧ σ.registry.cancelled = true ∧
      (∀ c, (σ.stage c).isIdle = true) ∧ σ.registry.usage.closes = 0 := by
  constructor
  · obtain ⟨σ, hreach, hflag, hfinished, hcloses, -⟩ :=
      exists_of_run Stage.isFinished 0 false openSession (by decide) rfl (by decide)
    exact ⟨σ, hreach, hflag, hfinished, hcloses⟩
  · obtain ⟨σ, hreach, hflag, hidle, hcloses, -⟩ :=
      exists_of_run Stage.isIdle 0 true tooLate (by decide) rfl (by decide)
    exact ⟨σ, hreach, hflag, hidle, hcloses⟩

end System

end ChatRelay
