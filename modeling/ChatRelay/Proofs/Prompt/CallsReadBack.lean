import ChatRelay.Proofs.Prompt.Tokens
import ChatRelay.Proofs.Stream.ByteRuns
import ChatRelay.Proofs.Stream.Replies
import ChatRelay.Proofs.Tools.Binding
import ChatRelay.Proofs.Tools.JsonCalls

/-!
# Calls in a prompt are read back from a reply

A dialect writes the calls of an assistant's turn the way the model would have written them. So the
tokens of written calls, taken for a reply, are read as just these calls: as one region each where
each call stands between its own marks, and as a single region where all of them stand in one array
(`regions`), and besides the regions there are only line feeds (`classify_toolCalls`).
-/

namespace ChatRelay.Prompt

open Reading StreamEvent Classifier

/-- What a dialect can write of a call and read again: expressions for the built-in functions with
integers of 64 bits with sign, and JSON without floats that is not nested too deep. -/
def Writable (c : ToolCall) : Dialect → Prop
  | .gemma => (Catalog.lookup? c.name).isSome = true ∧ c.FitsSigned
  | .mistral | .qwen =>
    (Json.obj c.arguments).FloatFree ∧ (Json.obj c.arguments).depth ≤ 125

/-- The calls of each region. -/
def regions (calls : List ToolCall) : Dialect → List (List ToolCall)
  | .mistral => [calls]
  | .gemma | .qwen => calls.map fun c => [c]

/-- The event of a region with calls. -/
def regionOf (calls : List ToolCall) : StreamEvent :=
  .toolCalls (String.ofList (ToolCall.writeAll calls))

variable {w : Whitelist} {calls : List ToolCall}

/-! ### Regions between text markers -/

/-- A call between its markers, and a line feed. -/
def block (m : Markers) (call : List Char) : List Char :=
  m.opening ++ call ++ m.closing ++ ['\n']

section
variable {m : Markers} {o : Char} {os cs : List Char} (hopening : m.opening = o :: os)
  (hclosing : m.closing = '\n' :: cs) (ho : o ≠ '\n')
include hclosing

/-- A region that holds one line ends where the line ends. -/
theorem scan_line (call : List Char → StreamEvent) {line : List Char} (hline : '\n' ∉ line)
    (rest : List Char) :
    scan m call (some []) (line ++ m.closing ++ '\n' :: rest) =
      ((scan m call none ('\n' :: rest)).1, call line :: (scan m call none ('\n' :: rest)).2) := by
  have hcut : Markers.cut? m.closing (line ++ m.closing ++ '\n' :: rest) =
      some (line, '\n' :: rest) := by
    rw [hclosing]
    exact Markers.cut?_of_not_mem hline _
  rw [scan_closing hcut, List.nil_append]

include hopening ho

/-- After the line feed of a block come the next one, its region and another line feed. -/
theorem scan_blocks (call : List Char → StreamEvent) {lines : List (List Char)}
    (h : ∀ l ∈ lines, '\n' ∉ l) :
    scan m call none ('\n' :: lines.flatMap (block m)) =
      (none, .plain "\n" :: lines.flatMap fun l => [call l, .plain "\n"]) := by
  induction lines with
  | nil =>
    have hnone : Markers.cut? m.opening ['\n'] = none := by
      rw [Markers.cut?_cons_eq_none, hopening, List.cons_prefix_cons]
      exact ⟨fun hp => ho hp.1, rfl⟩
    rw [List.flatMap_nil, scan_outside hnone]
    rfl
  | cons l lines ih =>
    obtain ⟨hl, hrest⟩ := List.forall_mem_cons.1 h
    have htext : '\n' :: (l :: lines).flatMap (block m) = ['\n'] ++ m.opening ++
        (l ++ m.closing ++ '\n' :: lines.flatMap (block m)) := by
      simp [block]
    have hcut : Markers.cut? m.opening ('\n' :: (l :: lines).flatMap (block m)) =
        some (['\n'], l ++ m.closing ++ '\n' :: lines.flatMap (block m)) := by
      rw [htext, hopening]
      exact Markers.cut?_of_not_mem (by simpa using ho) _
    rw [scan_opening hcut, scan_line hclosing call hl, ih hrest]
    rfl

/-- A text of blocks is read as a region and a line feed for each. -/
theorem scan_blocks_start (call : List Char → StreamEvent) {lines : List (List Char)}
    (hne : lines ≠ []) (h : ∀ l ∈ lines, '\n' ∉ l) :
    scan m call none (lines.flatMap (block m)) =
      (none, lines.flatMap fun l => [call l, .plain "\n"]) := by
  obtain ⟨l, lines, rfl⟩ := List.exists_cons_of_ne_nil hne
  obtain ⟨hl, hrest⟩ := List.forall_mem_cons.1 h
  have htext : (l :: lines).flatMap (block m) = [] ++ m.opening ++
      (l ++ m.closing ++ '\n' :: lines.flatMap (block m)) := by
    simp [block]
  have hcut : Markers.cut? m.opening ((l :: lines).flatMap (block m)) =
      some ([], l ++ m.closing ++ '\n' :: lines.flatMap (block m)) := by
    rw [htext, hopening]
    exact Markers.cut?_of_not_mem (by simp) _
  rw [scan_opening hcut, scan_line hclosing call hl,
    scan_blocks hopening hclosing ho call hrest]
  rfl

end

/-! ### Regions between control tokens -/

/-- The runs of written calls: each call on a line of its own between two control tokens, and a line
feed after them. -/
def framedRuns (v : Vocabulary) (closing : TokenId) (lines : List (List Char)) :
    List (Control × List TokenId) :=
  lines.flatMap fun l => [(.opening, v.byteTokens (Utf8.encodeChars ('\n' :: (l ++ ['\n'])))),
    (.closing closing, v.byteTokens (Utf8.encodeChars ['\n']))]

theorem runs_framed {g : Grammar} {v : Vocabulary} {opening closing : TokenId}
    (hopening : control? g v opening = some .opening)
    (hclosing : control? g v closing = some (.closing closing)) (lines : List (List Char)) :
    runs g v (lines.flatMap fun l =>
        opening :: (v.byteTokens (Utf8.encodeChars ('\n' :: (l ++ ['\n']))) ++
          closing :: v.byteTokens (Utf8.encodeChars ['\n']))) =
      ([], framedRuns v closing lines) := by
  induction lines with
  | nil => rfl
  | cons l lines ih =>
    rw [List.flatMap_cons, List.cons_append, List.append_assoc, List.cons_append,
      runs_control hopening, runs_byteTokens_append, runs_control hclosing, runs_byteTokens_append,
      ih]
    simp [framedRuns]

theorem readable_framed (v : Vocabulary) (closing : TokenId) (lines : List (List Char)) :
    ∀ p ∈ framedRuns v closing lines, v.Readable p.2 := by
  intro p hp
  obtain ⟨l, -, hp⟩ := List.mem_flatMap.1 hp
  rw [List.mem_pair] at hp
  rcases hp with rfl | rfl <;> exact Vocabulary.readable_byteTokens _ _

theorem foldReply_framed (call : List Char → StreamEvent) (v : Vocabulary) (closing : TokenId)
    (text : List Char) (lines : List (List Char)) :
    foldReply v call none text (framedRuns v closing lines) =
      ofText text ++ lines.flatMap fun l => [call ('\n' :: (l ++ ['\n'])), .plain "\n"] := by
  induction lines generalizing text with
  | nil =>
    rw [framedRuns, List.flatMap_nil, foldReply, List.flatMap_nil, List.append_nil]
  | cons l lines ih =>
    have hread := ih ['\n']
    rw [framedRuns, List.flatMap_cons, ← framedRuns, List.cons_append, List.cons_append,
      List.nil_append, foldReply, foldReply]
    simp only [Vocabulary.textOf_byteTokens, hread, List.flatMap_cons]
    rfl

/-! ### Written calls -/

/-- The events of written calls: their regions, each with the line feed that follows its marks. -/
def writtenEvents (calls : List ToolCall) : Dialect → List StreamEvent
  | .mistral => [regionOf calls]
  | .gemma | .qwen => calls.flatMap fun c => [regionOf [c], .plain "\n"]

theorem regionEvent_of_parse {s : CallSyntax} {cs : List Char}
    (h : s.parse w cs = .ok calls) : regionEvent s w cs = regionOf calls := by
  rw [regionEvent, h]
  rfl

/-- The markers around a call that is an expression. -/
def expressionMarkers : Markers :=
  ⟨"```tool_code\n".toList, "\n```".toList⟩

/-- What the tokens of written calls say as a reply. -/
def ReadsBack (w : Whitelist) (calls : List ToolCall) (d : Dialect) : Prop :=
  Readable d.grammar d.vocabulary ((toolCalls calls d).flatMap (·.ids d.vocabulary)) ∧
    replyEvents d d.vocabulary w ((toolCalls calls d).flatMap (·.ids d.vocabulary)) =
      writtenEvents calls d

theorem readsBack_expressions (hne : calls ≠ [])
    (hline : ∀ c ∈ calls, '\n' ∉ CallSyntax.expression.write c)
    (hparse : ∀ c ∈ calls,
      CallSyntax.expression.parse w (CallSyntax.expression.write c) = .ok [c]) :
    ReadsBack w calls .gemma := by
  have htext : (calls.flatMap fun c => "```tool_code\n".toList ++ CallSyntax.expression.write c ++
      "\n```\n".toList) =
        (calls.map CallSyntax.expression.write).flatMap (block expressionMarkers) := by
    have hend : "\n```\n".toList = "\n```".toList ++ ['\n'] := by decide +kernel
    rw [List.flatMap_map]
    refine List.flatMap_congr fun c _ => ?_
    rw [hend, block, ← List.append_assoc]
    rfl
  have hids : (toolCalls calls .gemma).flatMap (·.ids Dialect.gemma.vocabulary) =
      Dialect.gemma.vocabulary.byteTokens (Utf8.encodeChars
        ((calls.map CallSyntax.expression.write).flatMap (block expressionMarkers))) := by
    rw [toolCalls, htext, List.flatMap_singleton, Segment.ids_literal rfl, Utf8.encode,
      String.toList_ofList]
  have hscan : scan expressionMarkers (regionEvent .expression w) none
      ((calls.map CallSyntax.expression.write).flatMap (block expressionMarkers)) =
        (none, writtenEvents calls .gemma) := by
    rw [scan_blocks_start (String.toList_ofList ..) (String.toList_ofList ..) (by decide) _
      (by simpa using hne) (by simpa using hline), List.flatMap_map]
    refine congrArg (none, ·) (List.flatMap_congr fun c hc => ?_)
    rw [regionEvent_of_parse (hparse c hc)]
  constructor
  · rw [hids]
    refine ⟨?_, ?_⟩ <;> rw [runs_byteTokens]
    · exact Vocabulary.readable_byteTokens _ _
    · simp
  · rw [hids, replyEvents, runs_byteTokens]
    simp only [Vocabulary.textOf_byteTokens]
    -- The reply is a single text, so its markers alone say what is in it.
    change (scan expressionMarkers (regionEvent .expression w) none _).2 ++
      ending _ (scan expressionMarkers (regionEvent .expression w) none _).1 = _
    rw [hscan, ending, List.append_nil]

theorem readsBack_array (hparse : CallSyntax.json.parse w
      (Json.arrayText (calls.map CallSyntax.json.write)) = .ok calls) :
    ReadsBack w calls .mistral := by
  have hcontrol : (Segment.control "[TOOL_CALLS]").ids Dialect.mistral.vocabulary = [8] := by
    decide +kernel
  have hopening : control? .mistral Dialect.mistral.vocabulary 8 = some .opening := by
    decide +kernel
  have hids : (toolCalls calls .mistral).flatMap (·.ids Dialect.mistral.vocabulary) =
      8 :: Dialect.mistral.vocabulary.byteTokens (Utf8.encodeChars
        (Json.arrayText (calls.map CallSyntax.json.write))) := by
    rw [toolCalls, List.flatMap_cons, hcontrol, List.flatMap_singleton, Segment.ids_literal rfl,
      Utf8.encode, String.toList_ofList]
    rfl
  have hblank : (Json.arrayText (calls.map CallSyntax.json.write)).all Text.isBlank = false := by
    rw [Json.arrayText, List.cons_append, List.all_cons]
    rfl
  constructor
  · rw [hids]
    refine ⟨?_, ?_⟩ <;> rw [Dialect.grammar, runs_control hopening, runs_byteTokens]
    · exact Vocabulary.readable_byteTokens _ []
    · simpa using Vocabulary.readable_byteTokens _ _
  · rw [hids, replyEvents, Dialect.grammar, runs_control hopening, runs_byteTokens]
    simp only [Vocabulary.textOf_nil]
    rw [events_eq_foldReply rfl, foldReply]
    simp only [ofText_nil, List.nil_append]
    -- The region has no closing token: it ends with the reply.
    rw [foldReply, Vocabulary.textOf_byteTokens, List.nil_append, ending, hblank, callSyntax,
      regionEvent_of_parse hparse]
    rfl

theorem readsBack_objects (hparse : ∀ c ∈ calls, CallSyntax.json.parse w
      ('\n' :: (CallSyntax.json.write c ++ ['\n'])) = .ok [c]) :
    ReadsBack w calls .qwen := by
  have hbefore : (Segment.control "<tool_call>\n").ids Dialect.qwen.vocabulary =
      3 :: Dialect.qwen.vocabulary.byteTokens (Utf8.encodeChars ['\n']) := by
    decide +kernel
  have hafter : (Segment.control "\n</tool_call>\n").ids Dialect.qwen.vocabulary =
      Dialect.qwen.vocabulary.byteTokens (Utf8.encodeChars ['\n']) ++
        4 :: Dialect.qwen.vocabulary.byteTokens (Utf8.encodeChars ['\n']) := by
    decide +kernel
  have hopening : control? .qwen Dialect.qwen.vocabulary 3 = some .opening := by decide +kernel
  have hclosing : control? .qwen Dialect.qwen.vocabulary 4 = some (.closing 4) := by
    decide +kernel
  have hids : (toolCalls calls .qwen).flatMap (·.ids Dialect.qwen.vocabulary) =
      (calls.map CallSyntax.json.write).flatMap fun l =>
        3 :: (Dialect.qwen.vocabulary.byteTokens (Utf8.encodeChars ('\n' :: (l ++ ['\n']))) ++
          4 :: Dialect.qwen.vocabulary.byteTokens (Utf8.encodeChars ['\n'])) := by
    rw [toolCalls, List.flatMap_assoc, List.flatMap_map]
    refine List.flatMap_congr fun c _ => ?_
    -- The line feeds beside the control tokens are tokens like those of the call.
    have hline : '\n' :: (CallSyntax.json.write c ++ ['\n']) =
        ['\n'] ++ (CallSyntax.json.write c ++ ['\n']) := rfl
    rw [hline, Vocabulary.byteTokens_encodeChars_append, Vocabulary.byteTokens_encodeChars_append,
      List.flatMap_cons, hbefore, List.flatMap_cons, Segment.ids_literal rfl,
      List.flatMap_singleton, hafter, Utf8.encode, String.toList_ofList]
    simp only [List.append_assoc, List.cons_append]
  have hruns := runs_framed hopening hclosing (calls.map CallSyntax.json.write)
  constructor
  · rw [hids]
    refine ⟨?_, ?_⟩ <;> rw [Dialect.grammar, hruns]
    · exact Vocabulary.readable_byteTokens _ []
    · exact readable_framed _ _ _
  · rw [hids, replyEvents, Dialect.grammar, hruns]
    simp only [Vocabulary.textOf_nil]
    rw [events_eq_foldReply rfl, foldReply_framed, List.flatMap_map]
    refine List.flatMap_congr fun c hc => ?_
    rw [callSyntax, regionEvent_of_parse (hparse c hc)]

/-- Calls that may be made and can be written are read back in every dialect. -/
theorem readsBack_of_writable (d : Dialect) (hne : calls ≠ []) (hallowed : ∀ c ∈ calls, w.Allows c)
    (hname : ∀ c ∈ calls, c.name ≠ "") (hordered : ∀ c ∈ calls, (Json.obj c.arguments).Ordered)
    (hwritable : ∀ c ∈ calls, Writable c d) : ReadsBack w calls d := by
  cases d with
  | gemma =>
    have hsignature : ∀ c ∈ calls, ∃ s, Catalog.lookup? c.name = some s ∧
        s.validate c.arguments = .ok () := by
      intro c hc
      obtain ⟨s, hs⟩ := Option.isSome_iff_exists.1 (hwritable c hc).1
      exact ⟨s, hs, (hallowed c hc).validate hs⟩
    refine readsBack_expressions hne (fun c hc => ?_) fun c hc => ?_
    · obtain ⟨s, hs, hv⟩ := hsignature c hc
      exact ExpressionSyntax.newline_not_mem_write hs hv
    · obtain ⟨s, hs, hv⟩ := hsignature c hc
      exact CallSyntax.parse_write_of_fitsSigned w hs hv (hordered c hc).1 (hwritable c hc).2
  | mistral =>
    exact readsBack_array (JsonSyntax.parse_arrayText hne hallowed hname
      (fun c hc => ⟨(hwritable c hc).1, hordered c hc⟩) fun c hc => (hwritable c hc).2)
  | qwen =>
    refine readsBack_objects fun c hc => ?_
    have hblank : ∀ c ∈ ['\n'], Text.isBlank c = true := List.forall_mem_singleton.2 (by decide)
    have hread := JsonSyntax.parse_write hblank hblank (hallowed c hc) (hname c hc)
      ⟨(hwritable c hc).1, hordered c hc⟩ (hwritable c hc).2
    rwa [List.singleton_append, List.cons_append] at hread

/-! ### Regions and calls -/

theorem plain_of_writable {d : Dialect} {c : ToolCall} (hallowed : w.Allows c)
    (hordered : (Json.obj c.arguments).Ordered) (hwritable : Writable c d) :
    c.Plain ∧ (Json.obj c.arguments).depth ≤ 125 := by
  cases d with
  | gemma =>
    obtain ⟨s, hs⟩ := Option.isSome_iff_exists.1 hwritable.1
    obtain ⟨hfloat, hdepth⟩ := ToolCall.flat_of_validate (hallowed.validate hs) hordered.1
    exact ⟨⟨hfloat, hordered⟩, hdepth.trans (by decide)⟩
  | mistral => exact ⟨⟨hwritable.1, hordered⟩, hwritable.2⟩
  | qwen => exact ⟨⟨hwritable.1, hordered⟩, hwritable.2⟩

theorem flatten_regions (calls : List ToolCall) (d : Dialect) :
    (regions calls d).flatten = calls := by
  cases d with
  | mistral => exact List.flatten_singleton
  | _ => exact List.flatMap_singleton' calls

theorem length_regions (calls : List ToolCall) (d : Dialect) :
    (regions calls d).length = if d = .mistral then 1 else calls.length := by
  cases d <;> simp [regions]

theorem filter_writtenEvents (calls : List ToolCall) (d : Dialect) :
    (writtenEvents calls d).filter (·.tool) = (regions calls d).map regionOf := by
  have hflat : (calls.flatMap fun c => [regionOf [c], .plain "\n"]).filter (·.tool) =
      (calls.map fun c => [c]).map regionOf := by
    induction calls with
    | nil => rfl
    | cons c calls ih =>
      rw [List.flatMap_cons, List.filter_append, ih]
      rfl
  cases d with
  | mistral => rfl
  | _ => exact hflat

theorem isFill_writtenEvents (calls : List ToolCall) (d : Dialect) :
    ∀ e ∈ writtenEvents calls d, e.IsFill '\n' := by
  have hregion : ∀ cs, (regionOf cs).IsFill '\n' := by
    intro cs h
    cases h
  have hline : (plain "\n").IsFill '\n' := fun _ => ⟨rfl, by simp⟩
  cases d with
  | mistral => exact List.forall_mem_singleton.2 (hregion _)
  | _ =>
    intro e he
    obtain ⟨c, -, he⟩ := List.mem_flatMap.1 he
    rw [List.mem_pair] at he
    rcases he with rfl | rfl
    · exact hregion _
    · exact hline

/-- The text of a region is a JSON array of its calls. -/
theorem readAll?_regionOf {d : Dialect} (h : ∀ c ∈ calls,
      c.Plain ∧ (Json.obj c.arguments).depth ≤ 125) :
    (regions calls d).map (fun cs => ToolCall.readAll? (regionOf cs).text.toList) =
      (regions calls d).map some := by
  refine List.map_congr_left fun cs hcs => ?_
  have hsub : ∀ c ∈ cs, c ∈ calls := by
    intro c hc
    rw [← flatten_regions calls d]
    exact List.mem_flatten_of_mem hcs hc
  rw [regionOf, StreamEvent.toolCalls, String.toList_ofList]
  exact ToolCall.readAll?_writeAll (fun c hc => (h c (hsub c hc)).1) fun c hc => (h c (hsub c hc)).2

/-- The calls of an assistant's turn, written as the dialect writes them and taken for a reply: the
regions of the reply hold exactly these calls, one region a call or all in one, and all that is said
besides them is line feeds. -/
theorem classify_toolCalls (d : Dialect) {tools : List ToolDefinition} {calls : List ToolCall}
    (hne : calls ≠ []) (hallowed : ∀ c ∈ calls, (Whitelist.ofDefinitions tools).Allows c)
    (hname : ∀ c ∈ calls, c.name ≠ "") (hordered : ∀ c ∈ calls, (Json.obj c.arguments).Ordered)
    (hwritable : ∀ c ∈ calls, Writable c d) (prompt : List TokenId) :
    ∃ ids es, segmentTokens d.vocabulary.codec (toolCalls calls d) = .ok ids ∧
      classify d d.vocabulary.codec (.ofDefinitions tools) prompt ids = .ok es ∧
        (∃ batches : List (List ToolCall),
          (es.filter (·.tool)).map (fun e => ToolCall.readAll? e.text.toList) =
              batches.map some ∧
            batches.flatten = calls ∧
              batches.length = if d = .mistral then 1 else calls.length) ∧
          ∀ e ∈ es, e.tool = false → e = .plain e.text ∧ ∀ c ∈ e.text.toList, c = '\n' := by
  obtain ⟨hreadable, hreads⟩ :=
    readsBack_of_writable d hne hallowed hname hordered hwritable
  obtain ⟨es, hes, hjoin⟩ := classify_reads (List.Subset.refl _) (.ofDefinitions tools) prompt
    hreadable
  rw [hreads] at hjoin
  refine ⟨_, es, segmentTokens_codec _ _, hes, ⟨regions calls d, ?_, flatten_regions calls d,
    length_regions calls d⟩, ?_⟩
  · rw [← filter_tool_joinText, hjoin, filter_writtenEvents, List.map_map]
    exact readAll?_regionOf fun c hc =>
      plain_of_writable (hallowed c hc) (hordered c hc) (hwritable c hc)
  · have hfill : ∀ e ∈ joinText es, e.IsFill '\n' := by
      rw [hjoin]
      exact isFill_writtenEvents calls d
    intro e he htool
    obtain ⟨htext, hchars⟩ := isFill_of_joinText hfill e he htool
    exact ⟨eq_plain_of_isText htext, hchars⟩

/-- A declared function. -/
def searchTool : ToolDefinition :=
  ⟨.obj [("name", .str "search")]⟩

/-- Two calls, one of which spells the control token that ends its region. -/
def spellingCalls : List ToolCall :=
  [⟨"search", [("for", .arr [.str "</tool_call>", .null])]⟩, .newest 7 (by decide)]

theorem classify_toolCalls_spelling :
    ∃ ids es, segmentTokens Dialect.qwen.vocabulary.codec (toolCalls spellingCalls .qwen) =
        .ok ids ∧
      classify .qwen Dialect.qwen.vocabulary.codec (.ofDefinitions [searchTool]) [] ids = .ok es ∧
        (∃ batches : List (List ToolCall),
          (es.filter (·.tool)).map (fun e => ToolCall.readAll? e.text.toList) =
              batches.map some ∧
            batches.flatten = spellingCalls ∧ batches.length = 2) ∧
          ∀ e ∈ es, e.tool = false → e = .plain e.text ∧ ∀ c ∈ e.text.toList, c = '\n' := by
  have hallowed : ∀ c ∈ spellingCalls, (Whitelist.ofDefinitions [searchTool]).Allows c := by
    decide +kernel
  have hordered : ∀ c ∈ spellingCalls, (Json.obj c.arguments).Ordered := by
    rw [spellingCalls, List.forall_mem_cons, List.forall_mem_singleton]
    refine ⟨⟨by decide, ?_⟩, by decide +kernel, ?_⟩ <;>
      simp [ToolCall.newest, Json.OrderedMembers, Json.Ordered, Json.OrderedItems]
  have hwritable : ∀ c ∈ spellingCalls, Writable c .qwen := by
    rw [spellingCalls, List.forall_mem_cons, List.forall_mem_singleton]
    refine ⟨⟨?_, by decide⟩, ?_, by decide⟩ <;>
      simp [ToolCall.newest, Json.FloatFree, Json.FloatFreeMembers, Json.FloatFreeItems]
  exact classify_toolCalls .qwen (by decide) hallowed (by decide) hordered hwritable []

end ChatRelay.Prompt
