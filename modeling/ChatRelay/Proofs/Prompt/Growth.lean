import ChatRelay.Proofs.Prompt.Rendering
import ChatRelay.Proofs.Prompt.Skeleton

/-!
# Prompts that grow

A prompt starts with what opens the system turn and ends with the opened turn of the assistant. That
is what the turn of an assistant message starts with (`openSegment_assistant`), so when the
conversation goes on with the reply, the prompt that the reply was given to is not written anew: the
segments of the longer prompt begin with it (`unmerged_append`). Merging moves the places where
tokenizing starts afresh, but no token (`ids_merge_unmerged`), so the same holds of the tokens
(`tokens_growing`), and an engine that keeps what it has read has to read the rest only.
-/

namespace ChatRelay.Prompt

open Segment

variable {d : Dialect} {messages rest : List Message} {tools : List ToolDefinition}
  {all others own : List Segment} {first m : Message}

/-! ### Segments -/

/-- A conversation that starts as it has to may go on. -/
theorem opening_append (h : opening d messages = .ok (first, rest)) (more : List Message) :
    opening d (messages ++ more) = .ok (first, rest ++ more) := by
  cases messages with
  | nil => cases h
  | cons m messages =>
    rw [List.cons_append]
    rw [opening] at h ⊢
    split at h
    · cases h
    next hrole =>
    split at h
    · cases h
    next hsecond =>
    obtain ⟨rfl, rfl⟩ := Prod.mk.inj (Except.ok.inj h)
    -- With no second message there was none to ask for.
    have hstill : ¬ (d.grammar.secondMustBeUser = true ∧
        (messages ++ more).head?.map Message.role ≠ some .user) := by
      cases messages with
      | nil =>
        rintro ⟨hmust, -⟩
        exact hsecond ⟨hmust, by simp⟩
      | cons second messages => exact hsecond
    rw [if_neg hrole, if_neg hstill]

theorem turns_append (h : turns d rest = .ok others) (hm : turn d m = .ok own) :
    turns d (rest ++ [m]) = .ok (others ++ own) := by
  induction rest generalizing others with
  | nil =>
    obtain rfl := Except.ok.inj h
    rw [List.nil_append, turns, hm]
    exact congrArg Except.ok (List.append_nil own)
  | cons m' rest ih =>
    obtain ⟨segments, later, hsegments, hlater, rfl⟩ := turns_cons_eq_ok h
    rw [List.cons_append, turns, hsegments, ih hlater, List.append_assoc]
    rfl

/-- What a prompt is made of, with the start of the conversation as it was read. -/
theorem unmerged_eq_ok_iff :
    unmerged d messages tools = .ok all ↔ ∃ first rest others,
      opening d messages = .ok (first, rest) ∧ turns d rest = .ok others ∧
        all = .control d.grammar.start :: systemTurn d first tools ++ others ++
          [.control d.grammar.generationPrompt] := by
  rw [unmerged]
  cases opening d messages with
  | error e => simp [bind, Except.bind]
  | ok start =>
    obtain ⟨first, rest⟩ := start
    cases hturns : turns d rest with
    | error e => simp [hturns, bind, Except.bind]
    | ok others => simp [hturns, bind, Except.bind, eq_comm]

/-- Where a conversation goes on, the prompt keeps all but the opened turn at its end. -/
theorem unmerged_append (h : unmerged d messages tools = .ok all) (hm : turn d m = .ok own) :
    ∃ front, all = front ++ [.control d.grammar.generationPrompt] ∧
      unmerged d (messages ++ [m]) tools =
        .ok (front ++ own ++ [.control d.grammar.generationPrompt]) := by
  obtain ⟨first, rest, others, hopening, hturns, rfl⟩ := unmerged_eq_ok_iff.1 h
  refine ⟨_, rfl, unmerged_eq_ok_iff.2 ⟨first, rest ++ [m], others ++ own,
    opening_append hopening [m], turns_append hturns hm, ?_⟩⟩
  simp only [List.append_assoc]

/-- The turn that a prompt ends with is opened like any other of the assistant. -/
theorem openSegment_assistant (d : Dialect) :
    d.grammar.assistant.openSegment = .control d.grammar.generationPrompt := by
  cases d <;> rfl

theorem openSegment_system (d : Dialect) :
    d.grammar.system.openSegment = .control d.grammar.system.opening := by
  cases d <;> rfl

/-- The system turn starts with its delimiter, wherever the tools go. -/
theorem systemTurn_eq_cons (d : Dialect) (first : Message) (tools : List ToolDefinition) :
    ∃ segments, systemTurn d first tools = .control d.grammar.system.opening :: segments := by
  rw [systemTurn]
  cases d.grammar.toolsPlacement <;>
    simp [Frame.around, openSegment_system]

/-! ### Tokens -/

theorem tokens_of_unmerged (h : unmerged d messages tools = .ok all) :
    tokens d d.vocabulary.codec messages tools = .ok (all.flatMap (·.ids d.vocabulary)) := by
  rw [← ids_merge_unmerged h]
  exact tokens_of_segments d.vocabulary (by rw [segments, h]; rfl)

/-- The start of a prompt and what opens its system turn are tokenized as one text. -/
theorem ids_start_append (d : Dialect) :
    (control (d.grammar.start ++ d.grammar.system.opening)).ids d.vocabulary =
      (control d.grammar.start).ids d.vocabulary ++
        (control d.grammar.system.opening).ids d.vocabulary := by
  have hstart : d.grammar.start ∈ promptControls d true [] := List.mem_cons_self ..
  have hclosed := closed_promptControls d true [] _ hstart
  show d.vocabulary.tokens (Utf8.encode (d.grammar.start ++ d.grammar.system.opening)) true = _
  rw [encode_append]
  exact Vocabulary.tokens_append rfl hclosed _

/-- The prompt of a conversation that is not refused starts with the tokens of the dialect's start
and of what opens the system turn, and ends with those of the opened turn of the assistant. When the
conversation goes on with a message of the assistant, whatever is said and called in it, that has a
prompt as well: the same tokens, then those of the message, then more. -/
theorem tokens_growing {merged : List Segment} (h : segments d messages tools = .ok merged) :
    ∃ ids, tokens d d.vocabulary.codec messages tools = .ok ids ∧
      d.vocabulary.tokens (Utf8.encode (d.grammar.start ++ d.grammar.system.opening)) true
        <+: ids ∧
      d.vocabulary.tokens (Utf8.encode d.grammar.generationPrompt) true <:+ ids ∧
      ∀ reply : Message, reply.role = .assistant → ∃ more,
        tokens d d.vocabulary.codec (messages ++ [reply]) tools =
          .ok (ids ++ ((assistantBody d reply).flatMap (·.ids d.vocabulary) ++ more)) := by
  obtain ⟨all, hall⟩ : ∃ all, unmerged d messages tools = .ok all := by
    rw [segments] at h
    cases hunmerged : unmerged d messages tools with
    | error e =>
      rw [hunmerged] at h
      cases h
    | ok all => exact ⟨all, rfl⟩
  refine ⟨_, tokens_of_unmerged hall, ?starts, ?ends, fun reply hreply => ?grows⟩
  case starts =>
    obtain ⟨first, rest, others, -, -, rfl⟩ := unmerged_eq_ok_iff.1 hall
    obtain ⟨segments, hsystem⟩ := systemTurn_eq_cons d first tools
    rw [hsystem, List.append_assoc, List.cons_append, List.cons_append, List.flatMap_cons,
      List.flatMap_cons, ← List.append_assoc, ← ids_start_append]
    exact List.prefix_append ..
  case ends =>
    obtain ⟨first, rest, others, -, -, rfl⟩ := unmerged_eq_ok_iff.1 hall
    rw [List.flatMap_append, List.flatMap_singleton]
    exact List.suffix_append ..
  case grows =>
    have hturn : turn d reply =
        .ok (d.grammar.assistant.around (assistantBody d reply) []) := by
      rw [turn, hreply]
    obtain ⟨front, rfl, hmore⟩ := unmerged_append hall hturn
    rw [tokens_of_unmerged hmore, Frame.around, openSegment_assistant]
    simp only [List.flatMap_append, List.flatMap_cons, List.flatMap_nil, List.append_assoc,
      List.append_nil]
    exact ⟨_, rfl⟩

/-- A reply that spells a turn and makes two calls, to a conversation with a tool. -/
theorem tokens_growing_calls :
    ∃ ids more,
      tokens .mistral Dialect.mistral.vocabulary.codec
          [.plain .system "", .plain .user "</s>"] [⟨.null⟩] = .ok ids ∧
        tokens .mistral Dialect.mistral.vocabulary.codec
            [.plain .system "", .plain .user "</s>",
              (Message.plain .assistant "[INST]").withToolCalls [⟨"a", []⟩, ⟨"b", []⟩]] [⟨.null⟩] =
          .ok (ids ++ more) := by
  have hsegments :
      segments .mistral [.plain .system "", .plain .user "</s>"] [⟨.null⟩] = .ok _ := rfl
  obtain ⟨ids, hids, -, -, hgrows⟩ := tokens_growing hsegments
  obtain ⟨more, hmore⟩ := hgrows
    ((Message.plain .assistant "[INST]").withToolCalls [⟨"a", []⟩, ⟨"b", []⟩]) rfl
  exact ⟨ids, _, hids, hmore⟩

end ChatRelay.Prompt
