import ChatRelay.Proofs.Stream.Following

/-!
# What the client gets of a reply

The events of a reply do not depend on how its text was cut into tokens: with neighbouring pieces of
text joined, they are what a reader of the whole reply says (`classify_reads`). What the reader says
is put plainly here for the two ways to mark regions: where they are marked in the text, every run
of text is scanned as one string (`scanReply`, `classify_text_marked`); where they are marked by
control tokens, the reply is a fold over runs and control tokens (`foldReply`,
`classify_token_framed`).
-/

namespace ChatRelay.Classifier

open Reading StreamEvent

/-- Where the runs of a reply can be read as they come, its events are what the reader says. -/
theorem classify_reads {d : Dialect} {v : Vocabulary} (hv : d.grammar.controlTokens ⊆ v.specials)
    (w : Whitelist) (prompt : List TokenId) {tokens : List TokenId}
    (h : Readable d.grammar v tokens) :
    ∃ es, classify d v.codec w prompt tokens = .ok es ∧ joinText es = replyEvents d v w tokens := by
  obtain ⟨s, hsetup, rfl, rfl, hs⟩ := setup_knows w hv
  refine ⟨s.events (s.reply prompt tokens), ?_, ?_⟩
  · rw [classify, hsetup]
    rfl
  · have hfollows : Follows s v (.initial prompt) (runs s.dialect.grammar v tokens).1 :=
      ⟨rfl, fits_of_held_nil rfl fun _ => rfl, h.first, Vocabulary.unread_nil⟩
    have hreads := pushAll_follows hs tokens hfollows h.others
    have hstart : remaining s v (.initial prompt) (runs s.dialect.grammar v tokens).1
        (runs s.dialect.grammar v tokens).2 = replyEvents s.dialect v s.whitelist tokens := rfl
    rw [Setup.reply, Setup.events_append, hreads, hstart]
    exact joinText_events s.isText_call _ _ _ _ _

/-! ### Regions marked in the text -/

section
variable (v : Vocabulary) (call : List Char → StreamEvent)

/-- The events of a reply whose regions are marked in the text, by the text of its first run and
what comes after: every run is scanned as one string, a control token is said between two runs, and
the end of the turn ends the reply. -/
def scanReply (m : Markers) : Option (List Char) → List Char → List (Control × List TokenId) →
    List StreamEvent
  | region, text, (.other t, run) :: others =>
    let (region, es) := scan m call region text
    es ++ .control (v.spelling t) :: scanReply m region (v.textOf run) others
  | region, text, _ =>
    let (region, es) := scan m call region text
    es ++ ending call region

end

variable {v : Vocabulary} {call : List Char → StreamEvent}

/-- Where no control token marks a region, there are only the end of the turn and others. -/
theorem control?_of_markers {g : Grammar} {opening closing : String} {t : TokenId} {c : Control}
    (hg : g.toolFraming = .markers opening closing) (h : control? g v t = some c) :
    c = .endOfTurn ∨ ∃ t, c = .other t := by
  simp only [control?, hg, ToolFraming.opening?, ToolFraming.closing?] at h
  split at h
  · exact .inl (Option.some.inj h).symm
  · simp only [Option.any_none, Bool.false_eq_true, if_false] at h
    split at h
    · cases h
    · exact .inr ⟨t, (Option.some.inj h).symm⟩

theorem runs_of_markers {g : Grammar} {opening closing : String}
    (hg : g.toolFraming = .markers opening closing) (tokens : List TokenId) :
    ∀ p ∈ (runs g v tokens).2, p.1 = .endOfTurn ∨ ∃ t, p.1 = .other t := by
  induction tokens with
  | nil =>
    intro p hp
    cases hp
  | cons t tokens ih =>
    cases hc : control? g v t with
    | none => simpa [runs, hc] using ih
    | some c =>
      simp only [runs, hc, List.forall_mem_cons]
      exact ⟨control?_of_markers hg hc, ih⟩

theorem events_eq_scanReply {g : Grammar} {opening closing : String}
    (hg : g.toolFraming = .markers opening closing) (region : Option (List Char))
    (text : List Char) {others : List (Control × List TokenId)}
    (hothers : ∀ p ∈ others, p.1 = .endOfTurn ∨ ∃ t, p.1 = .other t) :
    events g v call region text others =
      scanReply v call ⟨opening.toList, closing.toList⟩ region text others := by
  induction others generalizing region text with
  | nil =>
    rw [events_eq, hg]
    rfl
  | cons p others ih =>
    obtain ⟨c, run⟩ := p
    obtain ⟨hp, hrest⟩ := List.forall_mem_cons.1 hothers
    rcases hp with hend | ⟨t, ht⟩
    · obtain rfl : c = .endOfTurn := hend
      rw [events_eq, hg]
      rfl
    · obtain rfl : c = .other t := ht
      rw [events_eq, eventsAfter_cons run (by simp), ih _ _ hrest, hg]
      rfl

/-- A reply whose regions are marked in the text, whatever the pieces of the vocabulary and the
control tokens that always show: if its runs can be read as they come, the client gets what a scan
of every run as one string says. -/
theorem classify_text_marked {d : Dialect} {opening closing : String}
    (hd : d.grammar.toolFraming = .markers opening closing)
    (hv : d.grammar.controlTokens ⊆ v.specials) (w : Whitelist) (prompt : List TokenId)
    {tokens : List TokenId} (h : Readable d.grammar v tokens) :
    ∃ es, classify d v.codec w prompt tokens = .ok es ∧
      joinText es =
        scanReply v (regionEvent (Prompt.callSyntax d) w) ⟨opening.toList, closing.toList⟩ none
          (v.textOf (runs d.grammar v tokens).1) (runs d.grammar v tokens).2 := by
  obtain ⟨es, hes, hjoin⟩ := classify_reads hv w prompt h
  refine ⟨es, hes, ?_⟩
  rw [hjoin, ← events_eq_scanReply hd none _ (runs_of_markers hd tokens)]
  rfl

/-- A vocabulary whose pieces cut markers and a character. -/
def cuttingVocabulary : Vocabulary :=
  let pieces :=
    [[0xC3], [0xA9, 0x60], Utf8.encode "``", Utf8.encode "`tool_", Utf8.encode "code\n"]
  ((Vocabulary.ofSpecials Grammar.gemma.controlTokens).withPieces pieces).withUserDefined
    ["<end_of_turn>"]

/-- A character and a marker that are cut by one token, a control token inside of a region, and the
start of a marker at the end of the turn. -/
def cuttingReply : List TokenId :=
  let v := cuttingVocabulary
  v.encode "ab" ++ [v.pieceId 0, v.pieceId 1] ++ v.encode "`" ++ [v.pieceId 3, v.pieceId 4] ++
    v.encode "f(" ++ [2] ++ v.encode "\n``" ++ [v.pieceId 2, 3] ++ v.encode "c"

theorem classify_text_marked_cut_markers :
    Dialect.gemma.grammar.toolFraming = .markers "```tool_code\n" "\n```" ∧
      Grammar.gemma.controlTokens ⊆ cuttingVocabulary.specials ∧
      Readable .gemma cuttingVocabulary cuttingReply ∧
        ∃ es, classify .gemma cuttingVocabulary.codec ⟨[]⟩ [] cuttingReply = .ok es ∧
          joinText es =
            [.plain "abé", .control "<start_of_turn>", .toolCalls "f(", .plain "`"] := by
  have hv : Grammar.gemma.controlTokens ⊆ cuttingVocabulary.specials := by decide
  have h : Readable .gemma cuttingVocabulary cuttingReply := by decide +kernel
  obtain ⟨es, hes, hjoin⟩ := classify_text_marked (d := .gemma) rfl hv ⟨[]⟩ [] h
  refine ⟨rfl, hv, h, es, hes, hjoin.trans ?_⟩
  decide +kernel

/-! ### Regions marked by control tokens -/

/-- The events of a reply whose regions are marked by control tokens, by the text of its first run
and what comes after. Text is said outside of a region and collected inside. -/
def foldReply (v : Vocabulary) (call : List Char → StreamEvent) :
    Option (List Char) → List Char → List (Control × List TokenId) → List StreamEvent
  | none, text, [] => ofText text
  | none, text, (c, run) :: others =>
    ofText text ++
      match c with
      | .endOfTurn => []
      | .opening => foldReply v call (some []) (v.textOf run) others
      | .closing t | .other t =>
        .control (v.spelling t) :: foldReply v call none (v.textOf run) others
  | some collected, text, [] => ending call (some (collected ++ text))
  | some collected, text, (c, run) :: others =>
    match c with
    | .endOfTurn => ending call (some (collected ++ text))
    | .opening => foldReply v call (some (collected ++ text)) (v.textOf run) others
    | .closing _ => call (collected ++ text) :: foldReply v call none (v.textOf run) others
    | .other t =>
      .control (v.spelling t) :: foldReply v call (some (collected ++ text)) (v.textOf run) others

theorem events_eq_foldReply {g : Grammar} {opening : String} {closing : Option String}
    (hg : g.toolFraming = .tokens opening closing) (region : Option (List Char))
    (text : List Char) (others : List (Control × List TokenId)) :
    events g v call region text others = foldReply v call region text others := by
  induction others generalizing region text with
  | nil =>
    rw [events_eq, hg]
    cases region with
    | none => exact List.append_nil _
    | some collected => rfl
  | cons p others ih =>
    obtain ⟨c, run⟩ := p
    rw [events_eq, hg]
    cases region with
    | none =>
      cases c with
      | endOfTurn => rfl
      | _ =>
        rw [eventsAfter_cons run (by simp), ih]
        rfl
    | some collected =>
      cases c with
      | endOfTurn => rfl
      | _ =>
        rw [eventsAfter_cons run (by simp), ih]
        rfl

/-- A reply in a dialect that marks regions by control tokens, whatever the pieces of the vocabulary
and the control tokens that always show: if its runs can be read as they come, the client gets what
the fold over runs and control tokens says. -/
theorem classify_token_framed {d : Dialect} {opening : String} {closing : Option String}
    (hd : d.grammar.toolFraming = .tokens opening closing)
    (hv : d.grammar.controlTokens ⊆ v.specials) (w : Whitelist) (prompt : List TokenId)
    {tokens : List TokenId} (h : Readable d.grammar v tokens) :
    ∃ es, classify d v.codec w prompt tokens = .ok es ∧
      joinText es =
        foldReply v (regionEvent (Prompt.callSyntax d) w) none
          (v.textOf (runs d.grammar v tokens).1) (runs d.grammar v tokens).2 := by
  obtain ⟨es, hes, hjoin⟩ := classify_reads hv w prompt h
  refine ⟨es, hes, ?_⟩
  rw [hjoin, ← events_eq_foldReply hd]
  rfl

/-- A vocabulary in which one of the tokens around a region always shows. -/
def showingVocabulary : Vocabulary :=
  ((Vocabulary.ofSpecials Grammar.qwen.controlTokens).withPieces
    [[0xC3], [0xA9, 0x60]]).withUserDefined ["<tool_call>"]

/-- A region that is opened twice, a token that closes none, and a region at the end of the turn. -/
def strayReply : List TokenId :=
  let v := showingVocabulary
  v.encode "ab" ++ [3, v.pieceId 0, v.pieceId 1, 3] ++ v.encode "x" ++ [4, 4] ++ v.encode "y" ++
    [3, 0] ++ v.encode "z" ++ [2] ++ v.encode "c"

theorem classify_token_framed_stray_tokens :
    Dialect.qwen.grammar.toolFraming = .tokens "<tool_call>" (some "</tool_call>") ∧
      Grammar.qwen.controlTokens ⊆ showingVocabulary.specials ∧
      Readable .qwen showingVocabulary strayReply ∧
        ∃ es, classify .qwen showingVocabulary.codec ⟨[]⟩ [] strayReply = .ok es ∧
          joinText es =
            [.plain "ab", .toolCalls "é`x", .control "</tool_call>", .plain "y",
              .control "<|endoftext|>", .toolCalls "z"] := by
  have hv : Grammar.qwen.controlTokens ⊆ showingVocabulary.specials := by decide
  have h : Readable .qwen showingVocabulary strayReply := by decide +kernel
  obtain ⟨es, hes, hjoin⟩ := classify_token_framed (d := .qwen) rfl hv ⟨[]⟩ [] h
  refine ⟨rfl, hv, h, es, hes, hjoin.trans ?_⟩
  decide +kernel

end ChatRelay.Classifier
