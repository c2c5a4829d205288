import ChatRelay.Proofs.Config.Settings

/-!
# One precedence for every setting

A setting has the value that the highest layer gives it: the overrides over the environment over the
file over what is set initially (`resolved`). A configuration is loaded exactly if the file can be
read, every variable that is set can be, whether it is overridden or not, and what comes of all the
layers is `Servable`. Otherwise there is one error to report: that of the file, or else that of the
first variable that cannot be read, or else that of the first check that fails (`Reported`). That is
`load_layered`.
-/

namespace ChatRelay

/-! ### The first of several -/

/-- The first element of a list for which something holds. -/
def IsFirst {α : Type} (p : α → Prop) (l : List α) (a : α) : Prop :=
  ∃ before after, l = before ++ a :: after ∧ (∀ b ∈ before, ¬ p b) ∧ p a

section

variable {α : Type} {p : α → Prop} {a x : α} {l : List α}

theorem not_isFirst_nil : ¬ IsFirst p [] a := by
  rintro ⟨before, after, heq, -⟩
  cases before <;> cases heq

theorem isFirst_cons_self (h : p x) : IsFirst p (x :: l) a ↔ a = x := by
  constructor
  · rintro ⟨before, after, heq, hbefore, -⟩
    cases before with
    | nil => exact (List.cons.inj heq).1.symm
    | cons b before =>
      obtain ⟨rfl, -⟩ := List.cons.inj heq
      exact absurd h (hbefore x (List.mem_cons_self ..))
  · rintro rfl
    exact ⟨[], l, rfl, nofun, h⟩

theorem isFirst_cons_of_not (h : ¬ p x) : IsFirst p (x :: l) a ↔ IsFirst p l a := by
  constructor
  · rintro ⟨before, after, heq, hbefore, ha⟩
    cases before with
    | nil =>
      obtain ⟨rfl, -⟩ := List.cons.inj heq
      exact absurd ha h
    | cons b before =>
      obtain ⟨-, rfl⟩ := List.cons.inj heq
      exact ⟨before, after, rfl, (List.forall_mem_cons.1 hbefore).2, ha⟩
  · rintro ⟨before, after, rfl, hbefore, ha⟩
    exact ⟨x :: before, after, rfl, List.forall_mem_cons.2 ⟨h, hbefore⟩, ha⟩

theorem IsFirst.holds (h : IsFirst p l a) : p a := by
  obtain ⟨-, -, -, -, ha⟩ := h
  exact ha

theorem exists_isFirst (h : ∃ a ∈ l, p a) : ∃ a, IsFirst p l a := by
  induction l with
  | nil => simp at h
  | cons x l ih =>
    by_cases hx : p x
    · exact ⟨x, (isFirst_cons_self hx).2 rfl⟩
    · obtain ⟨a, ha, hpa⟩ := h
      rcases List.mem_cons.1 ha with rfl | ha
      · exact absurd hpa hx
      · obtain ⟨b, hb⟩ := ih ⟨a, ha, hpa⟩
        exact ⟨b, (isFirst_cons_of_not hx).2 hb⟩

end

/-! ### Variables that cannot be read -/

/-- A value that a variable cannot have, and what is wrong with it. -/
inductive EnvVariable.Refuses (value : String) : EnvVariable → SettingError → Prop where
  | modelSize {e : ModelSize.Unknown} (h : ModelSize.parse value = .error e) :
      Refuses value .modelSize (.size e)
  | dialect {e : Dialect.Unknown} (h : Dialect.parse value = .error e) :
      Refuses value .dialect (.dialect e)
  | port {e : IntegerError} (h : Integer.parse 0 ServerConfig.maxPort value.toList = .error e) :
      Refuses value .port (.port e)

/-- A variable that is set to a value that it cannot have. -/
def Unreadable (env : Environment) (v : EnvVariable) : Prop :=
  ∃ value cause, env v.key = some value ∧ v.Refuses value cause

variable {env : Environment} {v : EnvVariable} {vs : List EnvVariable} {value : String}
  {cause : SettingError} {c c' : ServerConfig} {e : ConfigError}

theorem apply_eq_error_iff : v.apply value c = .error cause ↔ v.Refuses value cause := by
  constructor
  · intro h
    cases v with
    | modelSize =>
      rw [EnvVariable.apply] at h
      split at h
      · cases h
      · next hparse =>
        obtain rfl := Except.error.inj h
        exact .modelSize hparse
    | dialect =>
      rw [EnvVariable.apply] at h
      split at h
      · cases h
      · next hparse =>
        obtain rfl := Except.error.inj h
        exact .dialect hparse
    | port =>
      rw [EnvVariable.apply] at h
      split at h
      · cases h
      · next hparse =>
        obtain rfl := Except.error.inj h
        exact .port hparse
    | _ => cases h
  · intro h
    cases h with
    | modelSize h => rw [EnvVariable.apply, h]
    | dialect h => rw [EnvVariable.apply, h]
    | port h => rw [EnvVariable.apply, h]

/-- The environment is refused for the first variable that cannot be read. -/
theorem applyVariables_eq_error :
    (applyVariables env vs c).2 = some e ↔ ∃ v value cause, IsFirst (Unreadable env) vs v ∧
      env v.key = some value ∧ v.Refuses value cause ∧ e = .badVariable v value cause := by
  induction vs generalizing c with
  | nil => simp [applyVariables, not_isFirst_nil]
  | cons v vs ih =>
    rw [applyVariables]
    split
    · next hnone =>
      have hread : ¬ Unreadable env v := by
        rintro ⟨value, cause, hvalue, -⟩
        cases hnone.symm.trans hvalue
      simp only [isFirst_cons_of_not hread, ih]
    next value hvalue =>
    split
    · next happly =>
      have hread : ¬ Unreadable env v := by
        rintro ⟨value', cause, hvalue', hrefuses⟩
        obtain rfl := Option.some.inj (hvalue.symm.trans hvalue')
        cases happly.symm.trans (apply_eq_error_iff.2 hrefuses)
      simp only [isFirst_cons_of_not hread, ih]
    · next cause happly =>
      have hrefuses := apply_eq_error_iff.1 happly
      have hbad : Unreadable env v := ⟨value, cause, hvalue, hrefuses⟩
      simp only [isFirst_cons_self hbad, Option.some.injEq]
      constructor
      · rintro rfl
        exact ⟨v, value, cause, rfl, hvalue, hrefuses, rfl⟩
      · rintro ⟨_, value', cause', rfl, hvalue', hrefuses', rfl⟩
        obtain rfl := Option.some.inj (hvalue.symm.trans hvalue')
        obtain rfl := Except.error.inj (happly.symm.trans (apply_eq_error_iff.2 hrefuses'))
        rfl

/-- The first of several variables that can be read sets its own setting, and the others go on. -/
theorem exists_of_applyVariables_cons (h : applyVariables env (v :: vs) c = (c', none)) :
    ∃ c₁, applyVariables env vs c₁ = (c', none) ∧ ∀ s, c₁.get s =
      if s.setBy? = some v then ((env v.key).bind s.ofText?).getD (c.get s) else c.get s := by
  rw [applyVariables] at h
  split at h
  · next hnone =>
    refine ⟨c, h, fun s => ?_⟩
    rw [hnone, Option.bind_none, Option.getD_none, ite_self]
  next value hvalue =>
  split at h
  · next c₁ happly =>
    refine ⟨c₁, h, fun s => ?_⟩
    rw [hvalue, Option.bind_some]
    exact get_of_apply happly s
  · cases h

/-- Variables leave the settings of other variables as they were. -/
theorem get_applyVariables_of_forall_ne {s : Setting} (hs : ∀ v ∈ vs, s.setBy? ≠ some v)
    (h : applyVariables env vs c = (c', none)) : c'.get s = c.get s := by
  induction vs generalizing c with
  | nil =>
    obtain rfl := (Prod.mk.inj h).1
    rfl
  | cons v vs ih =>
    obtain ⟨hv, hrest⟩ := List.forall_mem_cons.1 hs
    obtain ⟨c₁, hc₁, hget⟩ := exists_of_applyVariables_cons h
    rw [ih hrest hc₁, hget, if_neg hv]

/-- The variable of a setting among others sets it to what it says. -/
theorem get_applyVariables {s : Setting} (hnodup : vs.Nodup) (hv : v ∈ vs)
    (hs : s.setBy? = some v) (h : applyVariables env vs c = (c', none)) :
    c'.get s = ((env v.key).bind s.ofText?).getD (c.get s) := by
  induction vs generalizing c with
  | nil => cases hv
  | cons w vs ih =>
    obtain ⟨hw, hrest⟩ := List.nodup_cons.1 hnodup
    obtain ⟨c₁, hc₁, hget⟩ := exists_of_applyVariables_cons h
    rcases List.mem_cons.1 hv with rfl | hmem
    · have hother : ∀ u ∈ vs, s.setBy? ≠ some u := by
        intro u hu heq
        exact hw (Option.some.inj (hs.symm.trans heq) ▸ hu)
      rw [get_applyVariables_of_forall_ne hother hc₁, hget, if_pos hs]
    · have hne : s.setBy? ≠ some w := by
        intro heq
        exact hw (Option.some.inj (hs.symm.trans heq) ▸ hmem)
      rw [ih hrest hmem hc₁, hget, if_neg hne]

/-- A setting for which the environment has no value stays as it was, also if a variable cannot be
read. -/
theorem get_applyVariables_of_unset {s : Setting} (hs : Layer.ofEnvironment env s = none) :
    (applyVariables env vs c).1.get s = c.get s := by
  induction vs generalizing c with
  | nil => rfl
  | cons v vs ih =>
    rw [applyVariables]
    split
    · exact ih
    next value hvalue =>
    split
    · next c₁ happly =>
      rw [ih, get_of_apply happly]
      split
      · next hset =>
        have hnone : s.ofText? value = none := by
          simpa [Layer.ofEnvironment, hset, hvalue] using hs
        rw [hnone, Option.getD_none]
      · rfl
    · rfl

theorem get_applyEnvironment (h : c.applyEnvironment env = (c', none)) (s : Setting) :
    c'.get s = (Layer.ofEnvironment env s).getD (c.get s) := by
  rw [ServerConfig.applyEnvironment] at h
  cases hs : s.setBy? with
  | none =>
    have hlayer : Layer.ofEnvironment env s = none := by
      rw [Layer.ofEnvironment, hs]
      rfl
    rw [hlayer, Option.getD_none]
    exact get_applyVariables_of_forall_ne (fun v _ => by rw [hs]; nofun) h
  | some v =>
    have hlayer : Layer.ofEnvironment env s = (env v.key).bind s.ofText? := by
      rw [Layer.ofEnvironment, hs]
      rfl
    rw [hlayer]
    exact get_applyVariables (by decide) (by cases v <;> decide) hs h

/-! ### Checks that fail -/

/-- A check that a configuration fails. -/
def Violates (c : ServerConfig) : ConfigViolation → Prop
  | .noPort => c.port = 0
  | .noTokens => c.maxTokens = 0
  | .noRoom => c.queueCapacity = 0 ∨ c.eventBuffer = 0
  | .halfCredentials => ¬ (c.auth.username.isSome ↔ c.auth.password.isSome)

/-- All checks, in the order they are made. -/
def ConfigViolation.all : List ConfigViolation := [.noPort, .noTokens, .noRoom, .halfCredentials]

/-- A configuration that can be served. -/
structure Servable (c : ServerConfig) : Prop where
  port : c.port ≠ 0
  maxTokens : c.maxTokens ≠ 0
  queueCapacity : c.queueCapacity ≠ 0
  eventBuffer : c.eventBuffer ≠ 0
  credentials : c.auth.username.isSome ↔ c.auth.password.isSome

theorem servable_iff : Servable c ↔ ∀ k, ¬ Violates c k := by
  constructor
  · intro h k hk
    cases k with
    | noPort => exact h.port hk
    | noTokens => exact h.maxTokens hk
    | noRoom => exact hk.elim h.queueCapacity h.eventBuffer
    | halfCredentials => exact hk h.credentials
  · intro h
    exact {
      port := h .noPort
      maxTokens := h .noTokens
      queueCapacity := fun hroom => h .noRoom (.inl hroom)
      eventBuffer := fun hroom => h .noRoom (.inr hroom)
      credentials := not_not.1 (h .halfCredentials) }

/-- A configuration is refused for the first check that it fails. -/
theorem violation?_eq_some_iff {k : ConfigViolation} :
    c.violation? = some k ↔ IsFirst (Violates c) ConfigViolation.all k := by
  have hhalf : (c.auth.username.isSome != c.auth.password.isSome) = true
      ↔ Violates c .halfCredentials := by
    rw [bne_iff_ne, Ne, ← Bool.coe_iff_coe]
    rfl
  have hfirst (k' later) (h : Violates c k') :
      some k' = some k ↔ IsFirst (Violates c) (k' :: later) k := by
    rw [isFirst_cons_self h, Option.some.injEq, eq_comm]
  have hnext (k' later) (h : ¬ Violates c k') :
      IsFirst (Violates c) (k' :: later) k ↔ IsFirst (Violates c) later k :=
    isFirst_cons_of_not h
  rw [ServerConfig.violation?, ConfigViolation.all]
  split
  · next h => exact hfirst .noPort _ h
  next h =>
  rw [hnext .noPort _ h]
  split
  · next h => exact hfirst .noTokens _ h
  next h =>
  rw [hnext .noTokens _ h]
  split
  · next h => exact hfirst .noRoom _ h
  next h =>
  rw [hnext .noRoom _ h]
  split
  · next h => exact hfirst .halfCredentials _ (hhalf.1 h)
  next h =>
  rw [hnext .halfCredentials _ (mt hhalf.2 h)]
  exact iff_of_false nofun not_isFirst_nil

theorem violation?_eq_none_iff : c.violation? = none ↔ Servable c := by
  rw [servable_iff, Option.eq_none_iff_forall_ne_some]
  simp only [Ne, violation?_eq_some_iff]
  constructor
  · intro h k hk
    have hmem : k ∈ ConfigViolation.all := by cases k <;> decide
    obtain ⟨k', hk'⟩ := exists_isFirst ⟨k, hmem, hk⟩
    exact h k' hk'
  · rintro h k ⟨-, -, -, -, hk⟩
    exact h k hk

/-! ### All layers -/

variable {file : ConfigFile} {o : ConfigOverrides} {base : ServerConfig}

/-- The value of a setting in the highest layer that sets it. -/
def resolved (file : ConfigFile) (env : Environment) (o : ConfigOverrides) (s : Setting) : s.Value :=
  (((Layer.ofOverrides o s).or (Layer.ofEnvironment env s)).or (Layer.ofFile file s)).getD
    (ServerConfig.initial.get s)

/-- What the layers come to. -/
def merged (file : ConfigFile) (env : Environment) (o : ConfigOverrides) : ServerConfig :=
  .ofSettings (resolved file env o)

theorem applyEnvironment_readable_iff :
    (c.applyEnvironment env).2 = none ↔ ∀ v, ¬ Unreadable env v := by
  rw [Option.eq_none_iff_forall_ne_some]
  constructor
  · intro h v hv
    have hmem : v ∈ EnvVariable.all := by cases v <;> decide
    obtain ⟨w, hw⟩ := exists_isFirst ⟨v, hmem, hv⟩
    obtain ⟨value, cause, hvalue, hrefuses⟩ := hw.holds
    exact h _ (applyVariables_eq_error.2 ⟨w, value, cause, hw, hvalue, hrefuses, rfl⟩)
  · intro h e he
    obtain ⟨v, -, -, hfirst, -⟩ := applyVariables_eq_error.1 he
    exact h v hfirst.holds

theorem load_of_badFile (h : file.load = .error e) : ServerConfig.load file env o = .error e := by
  rw [ServerConfig.load, h]

theorem load_of_badVariable (hfile : file.load = .ok base)
    (h : (base.applyEnvironment env).2 = some e) : ServerConfig.load file env o = .error e := by
  obtain ⟨c, hc⟩ : ∃ c, base.applyEnvironment env = (c, some e) := ⟨_, Prod.ext rfl h⟩
  simp only [ServerConfig.load, hfile, hc]

/-- If the file and the variables can be read, what the layers come to is checked. -/
theorem load_of_readable (hfile : file.load = .ok base) (henv : ∀ v, ¬ Unreadable env v) :
    ServerConfig.load file env o = match (merged file env o).violation? with
      | some k => .error (.invalid k)
      | none => .ok (merged file env o) := by
  obtain ⟨c, hc⟩ : ∃ c, base.applyEnvironment env = (c, none) :=
    ⟨_, Prod.ext rfl (applyEnvironment_readable_iff.2 henv)⟩
  have hmerged : c.applyOverrides o = merged file env o := by
    refine ServerConfig.eq_ofSettings fun s => ?_
    rw [get_applyOverrides, get_applyEnvironment hc, get_of_load hfile, resolved,
      Option.getD_or, Option.getD_or]
  simp only [ServerConfig.load, hfile, hc, hmerged, ServerConfig.validate]
  cases (merged file env o).violation? <;> rfl

/-- What keeps a configuration from being loaded. The file is read before the environment, and the
environment before anything is checked. -/
inductive Reported (file : ConfigFile) (env : Environment) (o : ConfigOverrides) :
    ConfigError → Prop where
  | file {e : ConfigError} (h : file.load = .error e) : Reported file env o e
  | environment {v : EnvVariable} {value : String} {cause : SettingError}
      (hfile : ∃ c, file.load = .ok c) (hfirst : IsFirst (Unreadable env) EnvVariable.all v)
      (hvalue : env v.key = some value) (hcause : v.Refuses value cause) :
      Reported file env o (.badVariable v value cause)
  | check {k : ConfigViolation} (hfile : ∃ c, file.load = .ok c)
      (henv : ∀ v, ¬ Unreadable env v)
      (hfirst : IsFirst (Violates (merged file env o)) ConfigViolation.all k) :
      Reported file env o (.invalid k)

theorem load_eq_error_iff : ServerConfig.load file env o = .error e ↔ Reported file env o e := by
  constructor
  · intro h
    cases hfile : file.load with
    | error e' =>
      obtain rfl := Except.error.inj ((load_of_badFile hfile).symm.trans h)
      exact .file hfile
    | ok base =>
      cases henv : (base.applyEnvironment env).2 with
      | some e' =>
        obtain rfl := Except.error.inj ((load_of_badVariable hfile henv).symm.trans h)
        obtain ⟨v, value, cause, hfirst, hvalue, hcause, rfl⟩ := applyVariables_eq_error.1 henv
        exact .environment ⟨base, hfile⟩ hfirst hvalue hcause
      | none =>
        have hread := applyEnvironment_readable_iff.1 henv
        rw [load_of_readable hfile hread] at h
        split at h
        · next k hk =>
          obtain rfl := Except.error.inj h
          exact .check ⟨base, hfile⟩ hread (violation?_eq_some_iff.1 hk)
        · cases h
  · intro h
    cases h with
    | file hfile => exact load_of_badFile hfile
    | environment hfile hfirst hvalue hcause =>
      obtain ⟨base, hbase⟩ := hfile
      exact load_of_badVariable hbase
        (applyVariables_eq_error.2 ⟨_, _, _, hfirst, hvalue, hcause, rfl⟩)
    | check hfile henv hfirst =>
      obtain ⟨base, hbase⟩ := hfile
      rw [load_of_readable hbase henv, violation?_eq_some_iff.2 hfirst]

theorem load_eq_ok_iff : ServerConfig.load file env o = .ok c ↔
    (∃ base, file.load = .ok base) ∧ (∀ v, ¬ Unreadable env v) ∧ Servable (merged file env o)
      ∧ c = merged file env o := by
  constructor
  · intro h
    cases hfile : file.load with
    | error e => cases (load_of_badFile hfile).symm.trans h
    | ok base =>
      cases henv : (base.applyEnvironment env).2 with
      | some e => cases (load_of_badVariable hfile henv).symm.trans h
      | none =>
        have hread := applyEnvironment_readable_iff.1 henv
        rw [load_of_readable hfile hread] at h
        split at h
        · cases h
        · next hnone =>
          exact ⟨⟨base, rfl⟩, hread, violation?_eq_none_iff.1 hnone, (Except.ok.inj h).symm⟩
  · rintro ⟨⟨base, hfile⟩, henv, hservable, rfl⟩
    rw [load_of_readable hfile henv, violation?_eq_none_iff.2 hservable]

/-- One precedence: what loads, to which values, and which error is reported otherwise. -/
structure Layered (file : ConfigFile) (env : Environment) (o : ConfigOverrides) : Prop where
  succeeds : (∃ c, ServerConfig.load file env o = .ok c) ↔
    (∃ base, file.load = .ok base) ∧ (∀ v, ¬ Unreadable env v) ∧ Servable (merged file env o)
  value : ∀ c, ServerConfig.load file env o = .ok c → ∀ s, c.get s = resolved file env o s
  gpu : ∀ c, ServerConfig.load file env o = .ok c → c.model.gpu =
    ((env EnvVariable.gpuArchitecture.key).any (· ≠ "") || (Layer.ofFile file .gpu).getD false)
  fileKeeps : ∀ c, file.load = .ok c → ∀ s, Layer.ofFile file s = none →
    c.get s = ServerConfig.initial.get s
  environmentKeeps : ∀ (c : ServerConfig) (s), Layer.ofEnvironment env s = none →
    (c.applyEnvironment env).1.get s = c.get s
  overridesKeep : ∀ (c : ServerConfig) (s), Layer.ofOverrides o s = none →
    (c.applyOverrides o).get s = c.get s
  error : ∀ e, ServerConfig.load file env o = .error e ↔ Reported file env o e

theorem resolved_gpu : resolved file env o .gpu =
    ((env EnvVariable.gpuArchitecture.key).any (· ≠ "") || (Layer.ofFile file .gpu).getD false) := by
  rw [resolved, Option.getD_or, Option.getD_or]
  show ((env EnvVariable.gpuArchitecture.key).bind fun value =>
    if value = "" then none else some true).getD ((Layer.ofFile file .gpu).getD false) = _
  cases env EnvVariable.gpuArchitecture.key with
  | none => rfl
  | some value =>
    rw [Option.bind_some, Option.any_some]
    split
    · next hempty =>
      rw [decide_eq_false (not_not.2 hempty)]
      rfl
    · next hnamed =>
      rw [decide_eq_true hnamed]
      rfl

/-- Every configuration is loaded by the one precedence. -/
theorem load_layered (file : ConfigFile) (env : Environment) (o : ConfigOverrides) :
    Layered file env o where
  succeeds := by
    simp only [load_eq_ok_iff, exists_and_left, exists_eq, and_true]
  value c h s := by
    obtain ⟨-, -, -, rfl⟩ := load_eq_ok_iff.1 h
    exact ServerConfig.get_ofSettings ..
  gpu c h := by
    obtain ⟨-, -, -, rfl⟩ := load_eq_ok_iff.1 h
    exact resolved_gpu
  fileKeeps c h s hs := by rw [get_of_load h, hs, Option.getD_none]
  environmentKeeps c s hs := get_applyVariables_of_unset hs
  overridesKeep c s hs := by rw [get_applyOverrides, hs, Option.getD_none]
  error _ := load_eq_error_iff

/-- A file that sets the port and the tokens. -/
def portAndTokens : ConfigFile :=
  .content ("\x7b\"port\":1,\"max_tokens\":512\x7d".toList.map fun c => c.val.toUInt8)

/-- An environment that sets the port and names a GPU. -/
def portAndGpu : Environment := fun key =>
  if key = EnvVariable.port.key then some "90"
  else if key = EnvVariable.gpuArchitecture.key then some "sm_86"
  else none

/-- The port is overridden, the tokens come from the file, the GPU from the environment and the rest
is as it is initially. -/
theorem load_layered_port_overridden :
    let o : ConfigOverrides := { port := some 8080 }
    let c : ServerConfig := { ServerConfig.initial with
      port := 8080, maxTokens := 512, model := { ModelConfig.initial with gpu := true } }
    ServerConfig.load portAndTokens portAndGpu o = .ok c ∧
      ∀ s, c.get s = resolved portAndTokens portAndGpu o s := by
  intro o c
  have hload : ServerConfig.load portAndTokens portAndGpu o = .ok c := by
    unfold o c portAndTokens portAndGpu
    cbv
  exact ⟨hload, (load_layered portAndTokens portAndGpu o).value c hload⟩

/-- A variable has to be readable even if it is overridden. -/
example : ServerConfig.load .notGiven
    (fun key => if key = EnvVariable.port.key then some "many" else none) { port := some 8080 }
      = .error (.badVariable .port "many" (.port .invalidDigit)) := by
  decide

end ChatRelay
