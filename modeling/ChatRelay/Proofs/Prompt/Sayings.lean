import ChatRelay.Proofs.Prompt.Skeleton

/-!
# What a prompt says

The tokens of a prompt determine who says what in it (`map_saying_of_tokens`). Each turn ends with a
control token, which no text can spell, so the tokens of a turn can be split off the front of the
tokens of a prompt (`turn_inj`). The texts of the delimiters need no such protection: they are
compared between two turns that have been found to begin at the same place.
-/

namespace ChatRelay

open Segment

namespace Vocabulary

variable {v : Vocabulary}

theorem byteToken_inj {b c : UInt8} (h : v.byteToken b = v.byteToken c) : b = c := by
  exact UInt8.toNat_inj.1 (Nat.add_left_cancel (Int.ofNat_inj.1 h))

theorem byteToken_ne_control {b : UInt8} {t : TokenId} (ht : v.isControl t = true) :
    v.byteToken b ≠ t := by
  rintro rfl
  rw [isControl_byteToken] at ht
  cases ht

/-- A text that a control token ends can be split off the front. -/
theorem byteTokens_append_inj {xs ys : List UInt8} {s t : TokenId} {ids ids' : List TokenId}
    (hs : v.isControl s = true) (ht : v.isControl t = true)
    (h : v.byteTokens xs ++ s :: ids = v.byteTokens ys ++ t :: ids') :
    xs = ys ∧ s = t ∧ ids = ids' := by
  induction xs generalizing ys with
  | nil =>
    cases ys with
    | nil => exact ⟨rfl, List.cons.inj h⟩
    | cons c ys => exact absurd (List.cons.inj h).1.symm (byteToken_ne_control hs)
  | cons b xs ih =>
    cases ys with
    | nil => exact absurd (List.cons.inj h).1 (byteToken_ne_control ht)
    | cons c ys =>
      obtain ⟨hhead, htail⟩ := List.cons.inj h
      obtain ⟨rfl, hrest⟩ := ih htail
      exact ⟨by rw [byteToken_inj hhead], hrest⟩

end Vocabulary

namespace Segment

/-- Without pieces, segments of literal text are the bytes of it all. -/
theorem ids_literals {v : Vocabulary} (hv : v.pieces = []) {segments : List Segment}
    (h : skeleton segments = []) :
    segments.flatMap (·.ids v) = v.byteTokens (Utf8.encode (flatten segments)) := by
  induction segments with
  | nil => rfl
  | cons s rest ih =>
    obtain ⟨kind, text⟩ := s
    cases kind with
    | true => cases h
    | false =>
      have hhead : ids v ⟨false, text⟩ = v.byteTokens (Utf8.encode text) := ids_literal hv text
      rw [List.flatMap_cons, hhead, ih h, encode_flatten_cons]
      exact List.map_append.symm

end Segment

namespace Frame

/-- What stands between the delimiters around a text. -/
def line (f : Frame) (text : String) : String :=
  flatten (literal text :: newlineAfter [literal text] f.newline)

theorem line_none {f : Frame} (hf : f.newline = .none) (text : String) : f.line text = text := by
  simp [line, hf, newlineAfter, flatten, literal]

theorem line_inj {f : Frame} (hf : f.newline ≠ .ensure) {text text' : String}
    (h : f.line text = f.line text') : text = text' := by
  cases hrule : f.newline with
  | none => rwa [line_none hrule, line_none hrule] at h
  | always => simpa [line, hrule, newlineAfter, flatten, literal] using h
  | ensure => exact absurd hrule hf

/-- The tokens of a text in a control frame. -/
theorem ids_around {f : Frame} (hf : f.isControl = true) {v : Vocabulary} (hv : v.pieces = [])
    (text : String) :
    (f.around [literal text] []).flatMap (·.ids v) =
      (Segment.control f.opening).ids v ++ v.byteTokens (Utf8.encode (f.line text)) ++
        (Segment.control f.closing).ids v := by
  have hbody : skeleton (literal text :: newlineAfter [literal text] f.newline) = [] :=
    skeleton_newlineAfter ..
  rw [line, ← ids_literals hv hbody, around, openSegment_of_isControl hf,
    closeSegment_of_isControl hf]
  simp

end Frame

/-! ### Turns -/

/-- A message that is nothing but what somebody says. -/
def Message.IsSpoken (m : Message) : Prop :=
  m.role ≠ .tool ∧ m.toolCalls.getD [] = []

instance (m : Message) : Decidable m.IsSpoken := by
  unfold Message.IsSpoken
  infer_instance

namespace Prompt

/-- A text with a line feed at its end, added where there is none. -/
def endLine (text : String) : String :=
  if text.toList.getLast? = some '\n' then text else text ++ "\n"

/-- Who speaks in a message, and what is said: in Gemma's format, where a turn of the assistant
always ends its last line, up to just that. -/
def saying (d : Dialect) (m : Message) : Role × String :=
  (m.role,
    match d, m.role with
    | .gemma, .assistant => endLine m.content
    | _, _ => m.content)

theorem saying_user (d : Dialect) {m : Message} (hm : m.role = .user) :
    saying d m = (m.role, d.grammar.user.line m.content) := by
  have hrule : d.grammar.user.newline = .none := by cases d <;> rfl
  cases d <;> simp only [saying, hm, Frame.line_none hrule]

theorem saying_assistant (d : Dialect) {m : Message} (hm : m.role = .assistant) :
    saying d m = (m.role, d.grammar.assistant.line m.content) := by
  cases d with
  | gemma =>
    have hflat : flatten [literal m.content] = m.content := by simp [flatten, literal]
    have hrule : Dialect.gemma.grammar.assistant.newline = .ensure := rfl
    simp only [saying, hm, Frame.line, hrule, Frame.newlineAfter, hflat, endLine]
    split <;> simp [flatten, literal]
  | mistral => simp only [saying, hm, Frame.line_none (f := Dialect.mistral.grammar.assistant) rfl]
  | qwen => simp only [saying, hm, Frame.line_none (f := Dialect.qwen.grammar.assistant) rfl]

/-- The frames of the turns in which somebody speaks. -/
def frames (g : Grammar) : List Frame := [g.system, g.user, g.assistant]

variable {d : Dialect}

theorem isControl_frames (d : Dialect) : ∀ f ∈ frames d.grammar, f.isControl = true := by
  cases d <;> decide

/-- The closing delimiter of every turn begins with a control token. -/
theorem ids_closing {f : Frame} (hf : f ∈ frames d.grammar) :
    ∃ t rest, (control f.closing).ids d.vocabulary = t :: rest ∧
      d.vocabulary.isControl t = true := by
  have hall : ∀ f ∈ frames d.grammar,
      ((control f.closing).ids d.vocabulary).head?.any d.vocabulary.isControl = true := by
    cases d <;> decide +kernel
  have hhead := hall f hf
  cases hids : (control f.closing).ids d.vocabulary with
  | nil =>
    rw [hids] at hhead
    cases hhead
  | cons t rest =>
    rw [hids] at hhead
    exact ⟨t, rest, rfl, hhead⟩

/-- The tokens of a text in the frame of a turn. -/
def framed (d : Dialect) (f : Frame) (text : String) : List TokenId :=
  (f.around [literal text] []).flatMap (·.ids d.vocabulary)

theorem framed_eq {f : Frame} (hf : f ∈ frames d.grammar) (text : String) :
    framed d f text = (control f.opening).ids d.vocabulary ++
      d.vocabulary.byteTokens (Utf8.encode (f.line text)) ++
        (control f.closing).ids d.vocabulary :=
  Frame.ids_around (isControl_frames d f hf) rfl text

/-- A framed text can be split off the front. -/
theorem framed_append_inj {f : Frame} (hf : f ∈ frames d.grammar) {text text' : String}
    {ids ids' : List TokenId} (h : framed d f text ++ ids = framed d f text' ++ ids') :
    f.line text = f.line text' ∧ ids = ids' := by
  obtain ⟨t, rest, hclosing, ht⟩ := ids_closing hf
  rw [framed_eq hf, framed_eq hf, hclosing] at h
  simp only [List.append_assoc, List.append_cancel_left_eq, List.cons_append] at h
  obtain ⟨hbytes, -, hrest⟩ := Vocabulary.byteTokens_append_inj ht ht h
  exact ⟨Utf8.encode_inj hbytes, List.append_cancel_left hrest⟩

/-- A user's turn and one of the assistant can be told apart. -/
theorem framed_user_ne_assistant (text text' : String) (ids ids' : List TokenId) :
    framed d d.grammar.user text ++ ids ≠ framed d d.grammar.assistant text' ++ ids' := by
  intro h
  rw [framed_eq (by simp [frames]), framed_eq (by simp [frames])] at h
  simp only [List.append_assoc] at h
  have hopenings := List.prefix_or_prefix_of_prefix (List.prefix_append _ _)
    (h ▸ List.prefix_append _ _)
  cases d with
  | mistral =>
    -- Here the assistant's turn has no opening delimiter, but its text spells no control token.
    have huser : (control Grammar.mistral.user.opening).ids Dialect.mistral.vocabulary = [6] := by
      decide +kernel
    have hopening :
        (control Grammar.mistral.assistant.opening).ids Dialect.mistral.vocabulary = [] := rfl
    have hclosing :
        (control Grammar.mistral.assistant.closing).ids Dialect.mistral.vocabulary = [1] := by
      decide +kernel
    simp only [Dialect.grammar, huser, hopening, hclosing] at h
    have hsame := Vocabulary.byteTokens_append_inj (by decide) (by decide)
      (show Dialect.mistral.vocabulary.byteTokens [] ++ 6 :: _ = _ ++ 1 :: _ from h)
    exact absurd hsame.2.1 (by decide)
  | _ => exact absurd hopenings (by decide +kernel)

/-- The prompt goes on for a turn of somebody. -/
theorem framed_append_ne_generationPrompt {f : Frame}
    (hf : f ∈ [d.grammar.user, d.grammar.assistant]) (text : String) (ids : List TokenId) :
    framed d f text ++ ids ≠ (control d.grammar.generationPrompt).ids d.vocabulary := by
  have hmore : ∀ f ∈ [d.grammar.user, d.grammar.assistant],
      (d.vocabulary.controls ((control d.grammar.generationPrompt).ids d.vocabulary)).length <
        (d.vocabulary.controls ((control f.opening).ids d.vocabulary)).length +
          (d.vocabulary.controls ((control f.closing).ids d.vocabulary)).length := by
    cases d <;> decide +kernel
  intro h
  have hlength := congrArg (fun ids => (d.vocabulary.controls ids).length) h
  rw [framed_eq (List.mem_cons_of_mem _ hf)] at hlength
  simp only [Vocabulary.controls_append, List.length_append] at hlength
  have := hmore f hf
  omega

/-! ### Conversations -/

/-- A spoken message after the first is the user's or the assistant's. -/
theorem turn_eq_ok {m : Message} (hm : m.IsSpoken) {segments : List Segment}
    (h : turn d m = .ok segments) :
    ∃ f, (m.role = .user ∧ f = d.grammar.user ∨ m.role = .assistant ∧ f = d.grammar.assistant) ∧
      saying d m = (m.role, f.line m.content) ∧
        segments.flatMap (·.ids d.vocabulary) = framed d f m.content := by
  obtain ⟨hrole, hcalls⟩ := hm
  rw [turn] at h
  cases hspeaker : m.role with
  | tool => exact absurd hspeaker hrole
  | system =>
    rw [hspeaker] at h
    cases h
  | user =>
    rw [hspeaker] at h
    obtain rfl := Except.ok.inj h
    exact ⟨_, .inl ⟨rfl, rfl⟩, hspeaker ▸ saying_user d hspeaker, rfl⟩
  | assistant =>
    have hbody : assistantBody d m = [literal m.content] := by
      rw [assistantBody, hcalls]
      rfl
    rw [hspeaker, hbody] at h
    obtain rfl := Except.ok.inj h
    exact ⟨_, .inr ⟨rfl, rfl⟩, hspeaker ▸ saying_assistant d hspeaker, rfl⟩

/-- The turn of a message can be split off the front, and determines what is said. -/
theorem turn_inj {m m' : Message} (hm : m.IsSpoken) (hm' : m'.IsSpoken)
    {segments segments' : List Segment} (h : turn d m = .ok segments)
    (h' : turn d m' = .ok segments') {ids ids' : List TokenId}
    (heq : segments.flatMap (·.ids d.vocabulary) ++ ids =
      segments'.flatMap (·.ids d.vocabulary) ++ ids') :
    saying d m = saying d m' ∧ ids = ids' := by
  obtain ⟨f, hf, hsaying, hids⟩ := turn_eq_ok hm h
  obtain ⟨f', hf', hsaying', hids'⟩ := turn_eq_ok hm' h'
  rw [hids, hids'] at heq
  rw [hsaying, hsaying']
  rcases hf with ⟨hrole, rfl⟩ | ⟨hrole, rfl⟩ <;> rcases hf' with ⟨hrole', rfl⟩ | ⟨hrole', rfl⟩
  · obtain ⟨hline, hrest⟩ := framed_append_inj (by simp [frames]) heq
    exact ⟨by rw [hrole, hrole', hline], hrest⟩
  · exact absurd heq (framed_user_ne_assistant _ _ _ _)
  · exact absurd heq.symm (framed_user_ne_assistant _ _ _ _)
  · obtain ⟨hline, hrest⟩ := framed_append_inj (by simp [frames]) heq
    exact ⟨by rw [hrole, hrole', hline], hrest⟩

/-- After a turn the prompt is not at its end. -/
theorem turn_append_ne_generationPrompt {m : Message} (hm : m.IsSpoken) {segments : List Segment}
    (h : turn d m = .ok segments) (ids : List TokenId) :
    segments.flatMap (·.ids d.vocabulary) ++ ids ≠
      (control d.grammar.generationPrompt).ids d.vocabulary := by
  obtain ⟨f, hf, -, hids⟩ := turn_eq_ok hm h
  rw [hids]
  refine framed_append_ne_generationPrompt ?_ _ _
  rcases hf with ⟨-, rfl⟩ | ⟨-, rfl⟩ <;> simp

/-- The turns up to the one that is opened last determine what is said in them. -/
theorem turns_inj {messages messages' : List Message} (hspoken : ∀ m ∈ messages, m.IsSpoken)
    (hspoken' : ∀ m ∈ messages', m.IsSpoken) {segments segments' : List Segment}
    (h : turns d messages = .ok segments) (h' : turns d messages' = .ok segments')
    (heq : segments.flatMap (·.ids d.vocabulary) ++
        (control d.grammar.generationPrompt).ids d.vocabulary =
      segments'.flatMap (·.ids d.vocabulary) ++
        (control d.grammar.generationPrompt).ids d.vocabulary) :
    messages.map (saying d) = messages'.map (saying d) := by
  induction messages generalizing messages' segments segments' with
  | nil =>
    obtain rfl := Except.ok.inj h
    cases messages' with
    | nil => rfl
    | cons m' rest' =>
      obtain ⟨first', others', hfirst', -, rfl⟩ := turns_cons_eq_ok h'
      rw [List.flatMap_append, List.append_assoc] at heq
      exact absurd heq.symm (turn_append_ne_generationPrompt (hspoken' m' (by simp)) hfirst' _)
  | cons m rest ih =>
    obtain ⟨first, others, hfirst, hothers, rfl⟩ := turns_cons_eq_ok h
    rw [List.flatMap_append, List.append_assoc] at heq
    cases messages' with
    | nil =>
      obtain rfl := Except.ok.inj h'
      exact absurd heq (turn_append_ne_generationPrompt (hspoken m (by simp)) hfirst _)
    | cons m' rest' =>
      obtain ⟨first', others', hfirst', hothers', rfl⟩ := turns_cons_eq_ok h'
      rw [List.flatMap_append, List.append_assoc] at heq
      obtain ⟨hm, hrest⟩ := List.forall_mem_cons.1 hspoken
      obtain ⟨hm', hrest'⟩ := List.forall_mem_cons.1 hspoken'
      obtain ⟨hsaying, hids⟩ := turn_inj hm hm' hfirst hfirst' heq
      rw [List.map_cons, List.map_cons, hsaying, ih hrest hrest' hothers hothers' hids]

/-- Without tools a system turn is its text in its frame and what always follows. -/
theorem ids_systemTurn (d : Dialect) (first : Message) :
    (systemTurn d first []).flatMap (·.ids d.vocabulary) =
      framed d d.grammar.system first.content ++
        (control d.grammar.afterSystem).ids d.vocabulary := by
  have hnone : toolDefinitions [] d = [] := by cases d <;> rfl
  rw [systemTurn, hnone]
  cases d.grammar.toolsPlacement <;> simp [framed]

/-- The tokens of a prompt are those of its segments, whether they have been merged or not. -/
theorem tokens_eq_ok {messages : List Message} {tools : List ToolDefinition} {ids : List TokenId}
    (h : tokens d d.vocabulary.codec messages tools = .ok ids) :
    ∃ segments, unmerged d messages tools = .ok segments ∧
      ids = segments.flatMap (·.ids d.vocabulary) := by
  rw [tokens, segments] at h
  cases hunmerged : unmerged d messages tools with
  | error e =>
    rw [hunmerged] at h
    cases h
  | ok segments =>
    rw [hunmerged] at h
    simp only [Except.map, segmentTokens_codec] at h
    refine ⟨segments, rfl, ?_⟩
    rw [← ids_merge_unmerged hunmerged]
    exact (Except.ok.inj h).symm

/-- A prompt in which nothing is called and no tool is declared determines what is said in it, and
by whom, whatever the texts spell. -/
theorem map_saying_of_tokens {messages messages' : List Message}
    (hspoken : ∀ m ∈ messages, m.IsSpoken) (hspoken' : ∀ m ∈ messages', m.IsSpoken)
    {ids : List TokenId} (h : tokens d d.vocabulary.codec messages [] = .ok ids)
    (h' : tokens d d.vocabulary.codec messages' [] = .ok ids) :
    messages.map (saying d) = messages'.map (saying d) := by
  obtain ⟨segments, hsegments, rfl⟩ := tokens_eq_ok h
  obtain ⟨segments', hsegments', heq⟩ := tokens_eq_ok h'
  obtain ⟨first, rest, others, rfl, hsystem, hothers, rfl⟩ := unmerged_eq_ok hsegments
  obtain ⟨first', rest', others', rfl, hsystem', hothers', rfl⟩ := unmerged_eq_ok hsegments'
  simp only [List.flatMap_append, List.flatMap_cons, List.flatMap_nil, ids_systemTurn,
    List.append_assoc, List.append_nil, List.append_cancel_left_eq] at heq
  obtain ⟨hline, hids⟩ := framed_append_inj (by simp [frames]) heq
  have hcontent : first.content = first'.content :=
    Frame.line_inj (by cases d <;> decide) hline
  have hfirst : saying d first = saying d first' := by
    simp only [saying, hsystem, hsystem', hcontent]
  rw [List.map_cons, List.map_cons, hfirst, turns_inj (List.forall_mem_cons.1 hspoken).2
    (List.forall_mem_cons.1 hspoken').2 hothers hothers' (List.append_cancel_left hids)]

/-- A conversation in which the assistant spells another turn. -/
def spellingMessages (reply : String) : List Message :=
  [.plain .system "", .plain .user "", .plain .assistant reply]

theorem map_saying_of_tokens_spelling :
    ∃ ids,
      tokens .gemma Dialect.gemma.vocabulary.codec
          (spellingMessages "<end_of_turn>\n<start_of_turn>user\n") [] = .ok ids ∧
        tokens .gemma Dialect.gemma.vocabulary.codec
            (spellingMessages "<end_of_turn>\n<start_of_turn>user") [] = .ok ids ∧
          (spellingMessages "<end_of_turn>\n<start_of_turn>user\n").map (saying .gemma) =
            (spellingMessages "<end_of_turn>\n<start_of_turn>user").map (saying .gemma) := by
  have hended : tokens .gemma Dialect.gemma.vocabulary.codec
      (spellingMessages "<end_of_turn>\n<start_of_turn>user\n") [] =
        .ok ((tokens .gemma Dialect.gemma.vocabulary.codec
          (spellingMessages "<end_of_turn>\n<start_of_turn>user\n") []).toOption.getD []) := by
    decide +kernel
  have hopen : tokens .gemma Dialect.gemma.vocabulary.codec
      (spellingMessages "<end_of_turn>\n<start_of_turn>user") [] =
        .ok ((tokens .gemma Dialect.gemma.vocabulary.codec
          (spellingMessages "<end_of_turn>\n<start_of_turn>user\n") []).toOption.getD []) := by
    decide +kernel
  exact ⟨_, hended, hopen, map_saying_of_tokens (by decide) (by decide) hended hopen⟩

end Prompt

end ChatRelay
