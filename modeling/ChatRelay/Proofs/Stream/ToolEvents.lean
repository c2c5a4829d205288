import ChatRelay.Proofs.Tools.Allowed
import ChatRelay.Codec.Vocabulary
import ChatRelay.Stream.Classifier

/-!
# What an event of tool calls carries

Every such event reports a region of the reply. If calls were read from the region, the event hands
on these, and whoever decodes it gets calls that may be made. If no call was read from it, the event
carries the region as it is: so what the model wrote is shown, and a client that decodes such an
event may find in it a call that may not be made (`classify_tool_calls`).
-/

namespace ChatRelay.Classifier

/-- Only a dialect whose regions are not marked in the text has tokens for them. -/
def Setup.Framed (s : Setup) : Prop :=
  ∀ t, some t = s.toolOpen ∨ some t = s.toolClose →
    ∀ opening closing, s.dialect.grammar.toolFraming ≠ .markers opening closing

/-- What a classifier is set up with. -/
structure SetUp (d : Dialect) (codec : TokenCodec) (w : Whitelist) (s : Setup) : Prop where
  codec_eq : s.codec = codec
  dialect_eq : s.dialect = d
  whitelist_eq : s.whitelist = w
  endOfTurn : codec.specialTokenId d.grammar.endOfTurn = .ok s.endOfTurn
  framed : s.Framed

theorem setUp_of_setup {d : Dialect} {codec : TokenCodec} {w : Whitelist} {s : Setup}
    (h : setup d codec w = .ok s) : SetUp d codec w s := by
  obtain ⟨endOfTurn, hend, h⟩ := ok_of_bind h
  split at h
  · obtain rfl := Except.ok.inj h
    exact ⟨rfl, rfl, rfl, hend, fun t ht => by simp at ht⟩
  · next hframing =>
    obtain ⟨toolOpen, -, h⟩ := ok_of_bind h
    obtain rfl := Except.ok.inj h
    exact ⟨rfl, rfl, rfl, hend, fun t _ => by simp [hframing]⟩
  · next hframing =>
    obtain ⟨toolOpen, -, h⟩ := ok_of_bind h
    obtain ⟨toolClose, -, h⟩ := ok_of_bind h
    obtain rfl := Except.ok.inj h
    exact ⟨rfl, rfl, rfl, hend, fun t _ => by simp [hframing]⟩

theorem setup_eq {d : Dialect} {codec : TokenCodec} {w : Whitelist} {s : Setup}
    (h : setup d codec w = .ok s) : s.dialect = d ∧ s.whitelist = w :=
  ⟨(setUp_of_setup h).dialect_eq, (setUp_of_setup h).whitelist_eq⟩

/-- Only regions are reported as tool calls. -/
theorem exists_region {s : Setup} {outputs : List Output} {e : StreamEvent}
    (he : e ∈ s.events outputs) (htool : e.tool = true) :
    ∃ cs, .region cs ∈ outputs ∧ e = regionEvent (Prompt.callSyntax s.dialect) s.whitelist cs := by
  obtain ⟨output, hmem, hevent⟩ := List.mem_filterMap.1 he
  cases output with
  | region cs => exact ⟨cs, hmem, (Option.some.inj hevent).symm⟩
  | text cs =>
    obtain rfl := Option.some.inj hevent
    cases htool
  | control cs =>
    obtain rfl := Option.some.inj hevent
    cases htool
  | skipped token e => cases hevent
  | lossy count => cases hevent
  | dropped count e => cases hevent

/-- What a region is reported as. -/
inductive Reports (c : CallSyntax) (w : Whitelist) (region : List Char) (text : String) : Prop
  /-- The calls that were read from it; whoever decodes the text gets calls that may be made. -/
  | calls (calls : List ToolCall) (hparse : c.parse w region = .ok calls)
      (htext : text = String.ofList (ToolCall.writeAll calls))
      (hallowed : ∀ c ∈ calls, w.Allows c)
      (hdecoded : ∀ decoded, ToolCall.readAll? text.toList = some decoded →
        ∀ c ∈ decoded, w.Allows c)
  /-- The region itself, in which there was no call. -/
  | raw (hparse : c.parse w region = .error ⟨text⟩) (htext : text = String.ofList region)

theorem reports_regionEvent (c : CallSyntax) (w : Whitelist) (cs : List Char) :
    Reports c w cs (regionEvent c w cs).text := by
  rw [regionEvent]
  split
  · next calls hparse =>
    obtain ⟨-, hadmits⟩ := CallSyntax.admits_of_parse c hparse
    refine .calls calls hparse rfl (fun call hcall => (hadmits call hcall).allowed) ?_
    intro decoded hdecoded
    rw [StreamEvent.toolCalls, String.toList_ofList] at hdecoded
    exact ToolCall.allows_of_readAll? hadmits hdecoded
  · next e hparse =>
    rw [(CallSyntax.parse_eq_error_iff.1 hparse).2] at hparse
    exact .raw hparse rfl

/-- An event of tool calls in a reply, whatever the codec and the tokens: it reports a region, by
calls that may be made and are decoded as calls that may be made, or by its text if no call was read
from it. -/
theorem classify_tool_calls {d : Dialect} {codec : TokenCodec} {w : Whitelist}
    {prompt tokens : List TokenId} {es : List StreamEvent}
    (h : classify d codec w prompt tokens = .ok es) {e : StreamEvent} (he : e ∈ es)
    (htool : e.tool = true) :
    ∃ s region, setup d codec w = .ok s ∧ .region region ∈ s.reply prompt tokens ∧
      Reports (Prompt.callSyntax d) w region e.text := by
  obtain ⟨s, hs, hes⟩ := ok_of_bind h
  obtain rfl := Except.ok.inj hes
  obtain ⟨hdialect, hwhitelist⟩ := setup_eq hs
  obtain ⟨region, hregion, rfl⟩ := exists_region he htool
  refine ⟨s, region, hs, hregion, ?_⟩
  rw [hdialect, hwhitelist]
  exact reports_regionEvent _ _ _

/-- A vocabulary with single bytes and the control tokens of a dialect. -/
def regionVocabulary : Vocabulary :=
  .ofSpecials Grammar.qwen.controlTokens

/-- A reply that is one region. -/
def regionReply (content : String) : List TokenId :=
  regionVocabulary.tokens (Utf8.encode ("<tool_call>" ++ content ++ "</tool_call>")) true

/-- Two calls, of which one may be made. -/
def mixedCalls : String :=
  "[\x7b\"name\":\"rm\"\x7d,\x7b\"name\":\"getRecentChannelMessages\",\"arguments\":"
    ++ "\x7b\"limit\":1,\"channelIndex\":0\x7d\x7d]"

/-- The event for the one that may be made. -/
def allowedCall : StreamEvent :=
  .toolCalls ("[\x7b\"name\":\"getRecentChannelMessages\",\"arguments\":"
    ++ "\x7b\"channelIndex\":0,\"limit\":1\x7d\x7d]")

theorem classify_tool_calls_mixed :
    classify .qwen regionVocabulary.codec ⟨[]⟩ [] (regionReply mixedCalls) = .ok [allowedCall] ∧
      allowedCall ∈ [allowedCall] ∧ allowedCall.tool = true ∧
      ∃ s region, setup .qwen regionVocabulary.codec ⟨[]⟩ = .ok s ∧
        .region region ∈ s.reply [] (regionReply mixedCalls) ∧
        Reports .json ⟨[]⟩ region allowedCall.text := by
  have hclassify : classify .qwen regionVocabulary.codec ⟨[]⟩ [] (regionReply mixedCalls) =
      .ok [allowedCall] := by decide +kernel
  have hmem : allowedCall ∈ [allowedCall] := List.mem_singleton_self _
  exact ⟨hclassify, hmem, rfl, classify_tool_calls hclassify hmem rfl⟩

/-- A region in which nothing may be called is shown as it is, and can be decoded as a call that may
not be made. -/
theorem undeclared_call_shown :
    classify .qwen regionVocabulary.codec (.ofDefinitions []) []
        (regionReply "[\x7b\"name\":\"rm\",\"arguments\":\x7b\x7d\x7d]") =
      .ok [.toolCalls "[\x7b\"name\":\"rm\",\"arguments\":\x7b\x7d\x7d]"] ∧
      ToolCall.readAll? "[\x7b\"name\":\"rm\",\"arguments\":\x7b\x7d\x7d]".toList =
        some [⟨"rm", []⟩] ∧
      ¬ (Whitelist.ofDefinitions []).Allows ⟨"rm", []⟩ :=
  ⟨by decide +kernel, by decide +kernel, by decide +kernel⟩

end ChatRelay.Classifier
