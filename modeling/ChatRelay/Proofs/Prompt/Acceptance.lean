import Mathlib.Data.List.Forall2
import ChatRelay.Prompt.Render
import ChatRelay.Proofs.Json.Values
import ChatRelay.Proofs.Tools.Expressions

/-!
# Conversations that are accepted

A conversation is accepted if it is `WellFormed`: a system message comes first and nowhere else, a
user message second where the dialect demands it, and every tool message holds results
(`segments_isOk_iff`); results may be nested as deep as the JSON reader goes, and no deeper
(`isResults_compact_iff`). Otherwise it is refused for its start, or else for the first message that
`Offends` (`segments_eq_error_iff`). Nothing else in it matters, and the tools do not either
(`segments_eq_error_congr`).
-/

namespace ChatRelay.Prompt

/-! ### What is asked of a conversation -/

/-- A value that is the results of calls: a list of objects with something in it or, for most
dialects, a single object. -/
def AreResults (d : Dialect) : Json → Prop
  | .arr items => items ≠ [] ∧ ∀ item ∈ items, item.isObject = true
  | .obj _ => d ≠ .gemma
  | _ => False

/-- A text that the JSON reader takes for the results of calls. -/
def IsResults (d : Dialect) (content : String) : Prop :=
  ∃ value, Json.parse? content.toList = some value ∧ AreResults d value

/-- A conversation that a prompt can be made of. -/
structure WellFormed (d : Dialect) (messages : List Message) : Prop where
  first : messages[0]?.map Message.role = some .system
  others : ∀ m ∈ messages.tail, m.role ≠ .system
  second : d = .gemma → messages[1]?.map Message.role = some .user
  results : ∀ m ∈ messages, m.role = .tool → IsResults d m.content

/-- A conversation that does not start as it has to, and the error for that. -/
inductive StartsBadly (d : Dialect) : List Message → Invalid → Prop where
  | noMessages : StartsBadly d [] .noMessages
  | firstNotSystem {first : Message} {rest : List Message} (h : first.role ≠ .system) :
      StartsBadly d (first :: rest) .firstNotSystem
  | secondNotUser {first : Message} {rest : List Message} (h : first.role = .system)
      (hd : d = .gemma) (hsecond : rest.head?.map Message.role ≠ some .user) :
      StartsBadly d (first :: rest) .secondNotUser

/-- A message that has no place after the first, and the error for it. -/
inductive Offends (d : Dialect) (m : Message) : Invalid → Prop where
  | lateSystem (h : m.role = .system) : Offends d m .lateSystem
  | badToolResults (h : m.role = .tool) (hbad : ¬ IsResults d m.content) :
      Offends d m (.badToolResults m.content)

/-- The error that a conversation is refused with: the one for its start or else, if that is as it
has to be, the one for the first message that offends. -/
inductive Refused (d : Dialect) (messages : List Message) (e : Invalid) : Prop where
  | start (h : StartsBadly d messages e)
  | message {first m : Message} {before after : List Message}
      (heq : messages = first :: (before ++ m :: after))
      (hstart : ∀ e', ¬ StartsBadly d messages e')
      (hbefore : ∀ m' ∈ before, ∀ e', ¬ Offends d m' e') (h : Offends d m e)

/-- Messages with the same role and, if they are tool messages, the same content. -/
def SameRole (m m' : Message) : Prop :=
  m.role = m'.role ∧ (m.role = .tool → m.content = m'.content)

variable {d : Dialect} {m : Message} {messages rest : List Message} {tools : List ToolDefinition}
  {e : Invalid}

/-! ### Single messages -/

theorem resultsMustBeList_iff (d : Dialect) :
    d.grammar.resultsMustBeList = true ↔ d = .gemma := by
  cases d <;> decide

theorem secondMustBeUser_iff (d : Dialect) : d.grammar.secondMustBeUser = true ↔ d = .gemma := by
  cases d <;> decide

theorem isSome_toolResults? (d : Dialect) (content : String) :
    (toolResults? d.grammar content).isSome = true ↔ IsResults d content := by
  rw [toolResults?, IsResults]
  cases Json.parse? content.toList with
  | none => simp
  | some value =>
    simp only [Option.some.injEq, exists_eq_left']
    cases value with
    | arr items =>
      by_cases hgood : items ≠ [] ∧ ∀ item ∈ items, item.isObject = true <;>
        simp_all [AreResults]
    | obj members =>
      have hlist := resultsMustBeList_iff d
      by_cases hd : d = .gemma <;> simp_all [AreResults]
    | null => simp [AreResults]
    | bool b => simp [AreResults]
    | num n => simp [AreResults]
    | str s => simp [AreResults]

/-- Results are taken as they are written exactly if they are not nested too deep. -/
theorem isResults_compact_iff {value : Json} (hf : value.FloatFree) (ho : value.Ordered) :
    IsResults d value.compact ↔ AreResults d value ∧ value.depth < Json.Tree.depthLimit := by
  rw [IsResults, Json.compact, String.toList_ofList]
  simp only [Json.parse?_write_eq_some_iff hf ho]
  constructor
  · rintro ⟨_, ⟨rfl, hdepth⟩, h⟩
    exact ⟨h, hdepth⟩
  · rintro ⟨h, hdepth⟩
    exact ⟨value, ⟨rfl, hdepth⟩, h⟩

/-- A message after the first is refused exactly if it offends. -/
theorem turn_eq_error : turn d m = .error e ↔ Offends d m e := by
  constructor
  · intro h
    rw [turn] at h
    split at h
    · next hrole =>
      obtain rfl := Except.error.inj h
      exact .lateSystem hrole
    · cases h
    · cases h
    · next hrole =>
      split at h
      · cases h
      · next hnone =>
        obtain rfl := Except.error.inj h
        refine .badToolResults hrole fun hresults => ?_
        rw [← isSome_toolResults?, hnone] at hresults
        cases hresults
  · intro h
    cases h with
    | lateSystem hrole => rw [turn, hrole]
    | badToolResults hrole hbad =>
      rw [← isSome_toolResults?, Bool.not_eq_true, Option.isSome_eq_false_iff,
        Option.isNone_iff_eq_none] at hbad
      rw [turn, hrole]
      simp only [hbad]

/-- A message that has a place after the first. -/
theorem not_offends_iff :
    (∀ e, ¬ Offends d m e) ↔ m.role ≠ .system ∧ (m.role = .tool → IsResults d m.content) := by
  constructor
  · refine fun h => ⟨fun hrole => h _ (.lateSystem hrole), fun hrole => ?_⟩
    by_contra hbad
    exact h _ (.badToolResults hrole hbad)
  · rintro ⟨hsystem, hresults⟩ e h
    cases h with
    | lateSystem hrole => exact hsystem hrole
    | badToolResults hrole hbad => exact hbad (hresults hrole)

/-! ### All messages after the first -/

theorem turns_cons_eq_error :
    turns d (m :: rest) = .error e ↔
      Offends d m e ∨ (∀ e', ¬ Offends d m e') ∧ turns d rest = .error e := by
  simp only [← turn_eq_error, turns]
  cases turn d m with
  | error e' => simp [bind, Except.bind]
  | ok first => cases turns d rest <;> simp [bind, Except.bind]

/-- The first message that offends decides. -/
theorem turns_eq_error :
    turns d messages = .error e ↔ ∃ before m after, messages = before ++ m :: after ∧
      (∀ m' ∈ before, ∀ e', ¬ Offends d m' e') ∧ Offends d m e := by
  induction messages with
  | nil => exact iff_of_false nofun (by simp)
  | cons m rest ih =>
    rw [turns_cons_eq_error, ih]
    constructor
    · rintro (hm | ⟨hnot, before, m', after, rfl, hbefore, hm'⟩)
      · exact ⟨[], m, rest, rfl, nofun, hm⟩
      · exact ⟨m :: before, m', after, rfl, List.forall_mem_cons.2 ⟨hnot, hbefore⟩, hm'⟩
    · rintro ⟨before, m', after, heq, hbefore, hm'⟩
      cases before with
      | nil =>
        obtain ⟨rfl, rfl⟩ := List.cons.inj heq
        exact .inl hm'
      | cons m'' before =>
        obtain ⟨rfl, rfl⟩ := List.cons.inj heq
        obtain ⟨hnot, hbefore⟩ := List.forall_mem_cons.1 hbefore
        exact .inr ⟨hnot, before, m', after, rfl, hbefore, hm'⟩

/-! ### Starts -/

theorem opening_eq_error : opening d messages = .error e ↔ StartsBadly d messages e := by
  constructor
  · intro h
    cases messages with
    | nil =>
      obtain rfl := Except.error.inj h
      exact .noMessages
    | cons first rest =>
      rw [opening] at h
      split at h
      · next hfirst =>
        obtain rfl := Except.error.inj h
        exact .firstNotSystem hfirst
      next hfirst =>
      split at h
      · next hsecond =>
        obtain rfl := Except.error.inj h
        exact .secondNotUser (not_not.1 hfirst) ((secondMustBeUser_iff d).1 hsecond.1) hsecond.2
      · cases h
  · intro h
    cases h with
    | noMessages => rfl
    | firstNotSystem hfirst => rw [opening, if_pos hfirst]
    | secondNotUser hfirst hd hsecond =>
      rw [opening, if_neg (not_not.2 hfirst), if_pos ⟨(secondMustBeUser_iff d).2 hd, hsecond⟩]

/-- What starts as it has to is the system message and the others. -/
theorem opening_cons (h : ∀ e, ¬ StartsBadly d (m :: rest) e) :
    opening d (m :: rest) = .ok (m, rest) := by
  simp only [← opening_eq_error, opening] at h ⊢
  split
  · next hfirst => exact absurd (if_pos hfirst) (h _)
  next hfirst =>
  rw [if_neg hfirst] at h
  split
  · next hsecond => exact absurd (if_pos hsecond) (h _)
  · rfl

theorem not_startsBadly_iff :
    (∀ e, ¬ StartsBadly d (m :: rest) e) ↔
      m.role = .system ∧ (d = .gemma → rest.head?.map Message.role = some .user) := by
  constructor
  · intro h
    have hfirst : m.role = .system := by
      by_contra hfirst
      exact h _ (.firstNotSystem hfirst)
    refine ⟨hfirst, fun hd => ?_⟩
    by_contra hsecond
    exact h _ (.secondNotUser hfirst hd hsecond)
  · rintro ⟨hfirst, hsecond⟩ e h
    cases h with
    | firstNotSystem h => exact h hfirst
    | secondNotUser _ hd h => exact h (hsecond hd)

/-! ### Conversations -/

theorem segments_of_opening_error (h : opening d messages = .error e) :
    segments d messages tools = .error e := by
  rw [segments, unmerged, h]
  rfl

theorem segments_of_opening (h : opening d messages = .ok (m, rest)) :
    segments d messages tools = .error e ↔ turns d rest = .error e := by
  rw [segments, unmerged, h]
  cases hturns : turns d rest <;> simp [hturns, bind, Except.bind, Except.map]

/-- A conversation is refused for its start, or else for a message after the first. -/
theorem segments_cons_eq_error :
    segments d (m :: rest) tools = .error e ↔ StartsBadly d (m :: rest) e ∨
      (∀ e', ¬ StartsBadly d (m :: rest) e') ∧ turns d rest = .error e := by
  by_cases hstart : ∃ e', StartsBadly d (m :: rest) e'
  · obtain ⟨e', he'⟩ := hstart
    have hopening := opening_eq_error.2 he'
    rw [segments_of_opening_error hopening, ← opening_eq_error, hopening, Except.error.injEq,
      Except.error.injEq]
    exact ⟨.inl, fun h => h.elim id fun ⟨hnot, _⟩ => absurd he' (hnot e')⟩
  · have hnot := not_exists.1 hstart
    rw [segments_of_opening (opening_cons hnot)]
    exact ⟨fun h => .inr ⟨hnot, h⟩, fun h => h.elim (fun h => absurd h (hnot e)) And.right⟩

/-- The error with which a conversation is refused. -/
theorem segments_eq_error_iff :
    segments d messages tools = .error e ↔ Refused d messages e := by
  cases messages with
  | nil =>
    refine ⟨fun h => .start (opening_eq_error.1 ?_), fun h => ?_⟩
    · obtain rfl := Except.error.inj h
      rfl
    · cases h with
      | start h => exact segments_of_opening_error (opening_eq_error.2 h)
      | message heq => cases heq
  | cons first rest =>
    rw [segments_cons_eq_error, turns_eq_error]
    constructor
    · rintro (hstart | ⟨hnot, before, m, after, rfl, hbefore, hm⟩)
      · exact .start hstart
      · exact .message rfl hnot hbefore hm
    · rintro (hstart | ⟨heq, hnot, hbefore, hm⟩)
      · exact .inl hstart
      · obtain ⟨rfl, rfl⟩ := List.cons.inj heq
        exact .inr ⟨hnot, _, _, _, rfl, hbefore, hm⟩

theorem turns_isOk_iff :
    (∀ e, turns d messages ≠ .error e) ↔ ∀ m ∈ messages, ∀ e, ¬ Offends d m e := by
  induction messages with
  | nil => exact iff_of_true nofun nofun
  | cons m rest ih =>
    rw [List.forall_mem_cons, ← ih]
    simp only [Ne, turns_cons_eq_error, not_or, not_and]
    exact ⟨fun h => ⟨fun e => (h e).1, fun e => (h e).2 fun e => (h e).1⟩,
      fun h e => ⟨h.1 e, fun _ => h.2 e⟩⟩

theorem wellFormed_cons :
    WellFormed d (m :: rest) ↔
      (∀ e, ¬ StartsBadly d (m :: rest) e) ∧ ∀ m' ∈ rest, ∀ e, ¬ Offends d m' e := by
  simp only [not_startsBadly_iff, not_offends_iff]
  constructor
  · intro h
    have hfirst : m.role = .system := Option.some.inj h.first
    have hsecond : d = .gemma → rest.head?.map Message.role = some .user := by
      rw [List.head?_eq_getElem?]
      exact h.second
    exact ⟨⟨hfirst, hsecond⟩,
      fun m' hm' => ⟨h.others m' hm', h.results m' (List.mem_cons_of_mem _ hm')⟩⟩
  · rintro ⟨⟨hfirst, hsecond⟩, hothers⟩
    rw [List.head?_eq_getElem?] at hsecond
    refine ⟨congrArg some hfirst, fun m' hm' => (hothers m' hm').1, hsecond, fun m' hm' hrole => ?_⟩
    rcases List.mem_cons.1 hm' with rfl | hm'
    · rw [hfirst] at hrole
      cases hrole
    · exact (hothers m' hm').2 hrole

/-- The well-formed conversations are accepted, and no other. -/
theorem segments_isOk_iff :
    (∃ merged, segments d messages tools = .ok merged) ↔ WellFormed d messages := by
  rw [exists_ok_iff]
  cases messages with
  | nil => exact iff_of_false (fun h => h _ rfl) fun h => by cases h.first
  | cons m rest =>
    rw [wellFormed_cons, ← turns_isOk_iff]
    simp only [Ne, segments_cons_eq_error, not_or, not_and]
    exact ⟨fun h => ⟨fun e => (h e).1, fun e => (h e).2 fun e => (h e).1⟩,
      fun h e => ⟨h.1 e, fun _ => h.2 e⟩⟩

/-! ### What does not matter -/

theorem SameRole.symm {m' : Message} (h : SameRole m m') : SameRole m' m :=
  ⟨h.1.symm, fun hrole => (h.2 (h.1.trans hrole)).symm⟩

theorem Offends.congr {m' : Message} (h : SameRole m m') (hm : Offends d m e) :
    Offends d m' e := by
  obtain ⟨hrole, hcontent⟩ := h
  cases hm with
  | lateSystem hsystem => exact .lateSystem (hrole.symm.trans hsystem)
  | badToolResults htool hbad =>
    rw [hcontent htool] at hbad ⊢
    exact .badToolResults (hrole.symm.trans htool) hbad

theorem StartsBadly.congr {messages' : List Message} (h : List.Forall₂ SameRole messages messages')
    (hm : StartsBadly d messages e) : StartsBadly d messages' e := by
  have hsecond : ∀ {ms ms' : List Message}, List.Forall₂ SameRole ms ms' →
      ms.head?.map Message.role = ms'.head?.map Message.role := by
    intro ms ms' h
    cases h with
    | nil => rfl
    | cons hm _ => exact congrArg some hm.1
  cases hm with
  | noMessages =>
    cases h
    exact .noMessages
  | firstNotSystem hfirst =>
    cases h with
    | cons hm _ => exact .firstNotSystem fun hsystem => hfirst (hm.1.trans hsystem)
  | secondNotUser hfirst hd hnot =>
    cases h with
    | cons hm hrest =>
      exact .secondNotUser (hm.1.symm.trans hfirst) hd (hsecond hrest ▸ hnot)

theorem turns_eq_error_congr {messages' : List Message}
    (h : List.Forall₂ SameRole messages messages') :
    turns d messages = .error e ↔ turns d messages' = .error e := by
  induction h with
  | nil => rfl
  | cons hm _ ih =>
    have hoffends : ∀ e, Offends d _ e ↔ Offends d _ e := fun e => ⟨.congr hm, .congr hm.symm⟩
    simp only [turns_cons_eq_error, ih, hoffends]

/-- Conversations with the same roles and the same tool messages are refused for the same reason,
whatever tools there are. -/
theorem segments_eq_error_congr {messages' : List Message} {tools' : List ToolDefinition}
    (h : List.Forall₂ SameRole messages messages') :
    segments d messages tools = .error e ↔ segments d messages' tools' = .error e := by
  cases h with
  | nil => rfl
  | cons hm hrest =>
    have hboth := List.Forall₂.cons hm hrest
    have hflip := hboth.flip.imp fun _ _ => SameRole.symm
    have hstart : ∀ e, StartsBadly d _ e ↔ StartsBadly d _ e :=
      fun e => ⟨.congr hboth, .congr hflip⟩
    simp only [segments_cons_eq_error, hstart, turns_eq_error_congr hrest]

end ChatRelay.Prompt
