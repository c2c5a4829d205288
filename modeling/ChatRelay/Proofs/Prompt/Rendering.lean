import ChatRelay.Proofs.Codec.Lossless
import ChatRelay.Proofs.Prompt.Tokens

/-!
# Prompts read back

A byte-level vocabulary renders the tokens of a text to that text, and since rendering goes token by
token, the tokens of segments to what the segments say (`render_ids`). So a prompt that is rendered
with its control tokens shown is the text that the conversation has been rendered to
(`codec_lossless`), whatever control tokens and pieces the vocabulary has.
-/

namespace ChatRelay

namespace Segment

/-- The tokens of segments render to what the segments say. -/
theorem render_ids (v : Vocabulary) (segments : List Segment) :
    v.render true (segments.flatMap (·.ids v)) = .ok (Utf8.encode (flatten segments)) := by
  induction segments with
  | nil => rfl
  | cons s rest ih =>
    have hs : v.render true (s.ids v) = .ok (Utf8.encode s.text) :=
      Vocabulary.render_tokens v (fun _ => rfl) _
    rw [List.flatMap_cons, Vocabulary.render_append, hs, ih, encode_flatten_cons]
    rfl

end Segment

namespace Prompt

/-- The prompt of a conversation that is not refused has tokens. -/
theorem tokens_of_segments (v : Vocabulary) {d : Dialect} {messages : List Message}
    {tools : List ToolDefinition} {merged : List Segment}
    (h : segments d messages tools = .ok merged) :
    tokens d v.codec messages tools = .ok (merged.flatMap (·.ids v)) := by
  rw [tokens, h]
  show (segmentTokens v.codec merged).mapError _ = _
  rw [segmentTokens_codec]
  rfl

/-- A byte-level vocabulary loses nothing, whatever came before. Every text has tokens, all of them
in the vocabulary: with special parsing they render to the text when control tokens are shown;
without, they render to it either way, and none of them is a control token. The tokens of a prompt,
with control tokens shown, render to the text of its segments. -/
theorem codec_lossless (v : Vocabulary) (prior : List TokenId) :
    (∀ bytes, ∃ ids, v.codec.tokenize bytes true = .ok ids ∧
      v.codec.detokenize ids prior true = .ok bytes ∧ ∀ t ∈ ids, ¬ v.IsAbsent t) ∧
    (∀ bytes, ∃ ids, v.codec.tokenize bytes false = .ok ids ∧
      (∀ shown, v.codec.detokenize ids prior shown = .ok bytes) ∧
        ∀ t ∈ ids, ¬ v.IsAbsent t ∧ (v.specials.length : Int) ≤ t) ∧
    ∀ d messages tools merged, segments d messages tools = .ok merged →
      ∃ ids, tokens d v.codec messages tools = .ok ids ∧
        v.codec.detokenize ids prior true = .ok (Utf8.encode (Segment.flatten merged)) := by
  refine ⟨fun bytes => ?special, fun bytes => ?literal, fun d messages tools merged h => ?prompt⟩
  case special =>
    exact ⟨v.tokens bytes true, rfl, v.detokenize_tokens (fun _ => rfl) bytes prior,
      fun t => v.tokens_present⟩
  case literal =>
    refine ⟨v.tokens bytes false, rfl, fun shown => ?_, fun t ht => ?_⟩
    · have hliteral : false = true → shown = true := nofun
      exact v.detokenize_tokens hliteral bytes prior
    · exact ⟨v.tokens_present ht, v.le_of_mem_literal ht⟩
  case prompt =>
    exact ⟨_, tokens_of_segments v h,
      Vocabulary.detokenize_of_render (Segment.render_ids v merged) prior⟩

/-- Control tokens of which one is empty, two are equal and some begin with others, one of them
always shown; and pieces that overlap with them, one of them empty. -/
def overlapping : Vocabulary :=
  ⟨["", "<|im_start|>", "<|im_start|>user", "<|im", "<|im_start|>"], [1],
    [[], [0x3C], [0x3C, 0x7C], [0x3C, 0x7C, 0x69]]⟩

theorem codec_lossless_overlapping :
    ∃ ids, tokens .qwen overlapping.codec [.plain .system "<|im_start|>", .plain .user "<|"] [] =
        .ok ids ∧
      overlapping.codec.detokenize ids [7] true =
        .ok (Utf8.encode ("<|im_start|>system\n<|im_start|><|im_end|>\n<|im_start|>user\n<|"
          ++ "<|im_end|>\n<|im_start|>assistant\n")) := by
  obtain ⟨ids, hids, hrender⟩ := (codec_lossless overlapping [7]).2.2 .qwen
    [.plain .system "<|im_start|>", .plain .user "<|"] [] _ rfl
  refine ⟨ids, hids, hrender.trans ?_⟩
  decide

end Prompt

end ChatRelay
