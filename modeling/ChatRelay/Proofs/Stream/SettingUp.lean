import ChatRelay.Proofs.Codec.Searching
import ChatRelay.Proofs.Stream.Reading
import ChatRelay.Proofs.Tools.Expressions

/-!
# Setting a classifier up

A classifier reacts to the control tokens that its codec finds for the texts of the dialect's
framing (`found_of_setup`), and it is set up if there is one for each of them (`setup_isOk_iff`). So
a vocabulary that lacks one is refused. If control tokens have to be searched for, no vocabulary is
refused: the classifier then reacts to the token with which the missing text begins, be it an
ordinary one (`search_names_iff`).
-/

namespace ChatRelay

/-- The texts of the control tokens that a classifier reacts to. -/
def Dialect.framingTexts (d : Dialect) : List String :=
  d.grammar.endOfTurn ::
    (d.grammar.toolFraming.opening?.toList ++ d.grammar.toolFraming.closing?.toList)

namespace Classifier

/-- The control tokens that a classifier reacts to. -/
def Setup.framingIds (s : Setup) : List TokenId :=
  s.endOfTurn :: (s.toolOpen.toList ++ s.toolClose.toList)

theorem isFraming_iff (s : Setup) (t : TokenId) : s.isFraming t = true ↔ t ∈ s.framingIds := by
  simp only [Setup.isFraming, Setup.framingIds, Bool.or_eq_true, beq_iff_eq, List.mem_cons,
    List.mem_append, Option.mem_toList, or_assoc, @eq_comm _ (some t)]

section
variable {d : Dialect} {codec : TokenCodec} {w : Whitelist}

/-- A classifier reacts to what the codec finds for the texts of the framing. -/
theorem found_of_setup {s : Setup} (h : setup d codec w = .ok s) :
    List.Forall₂ (fun text id => codec.specialTokenId text = .ok id) d.framingTexts s.framingIds := by
  obtain ⟨endOfTurn, hend, h⟩ := ok_of_bind h
  rw [Dialect.framingTexts]
  split at h
  · next hframing =>
    obtain rfl := Except.ok.inj h
    rw [hframing]
    exact .cons hend .nil
  · next hframing =>
    obtain ⟨toolOpen, hopen, h⟩ := ok_of_bind h
    obtain rfl := Except.ok.inj h
    rw [hframing]
    exact .cons hend (.cons hopen .nil)
  · next hframing =>
    obtain ⟨toolOpen, hopen, h⟩ := ok_of_bind h
    obtain ⟨toolClose, hclose, h⟩ := ok_of_bind h
    obtain rfl := Except.ok.inj h
    rw [hframing]
    exact .cons hend (.cons hopen (.cons hclose .nil))

/-- A classifier is set up if all these texts are found. -/
theorem setup_isOk_iff :
    (∃ s, setup d codec w = .ok s) ↔
      ∀ text ∈ d.framingTexts, ∃ id, codec.specialTokenId text = .ok id := by
  constructor
  · rintro ⟨s, hs⟩ text htext
    obtain ⟨i, hi, rfl⟩ := List.getElem_of_mem htext
    have hfound := found_of_setup hs
    exact ⟨_, hfound.get hi (hfound.length_eq ▸ hi)⟩
  · intro h
    obtain ⟨⟨e, he⟩, hframing⟩ := List.forall_mem_cons.1 h
    rw [setup, he]
    cases hf : d.grammar.toolFraming with
    | markers opening closing => exact ⟨_, rfl⟩
    | tokens opening closing? =>
      rw [hf] at hframing
      obtain ⟨o, ho⟩ := hframing opening (List.mem_append_left _ (List.mem_singleton_self _))
      cases closing? with
      | none => exact ⟨⟨codec, d, w, e, some o, none⟩, by simp [bind, Except.bind, ho]⟩
      | some closing =>
        obtain ⟨c, hc⟩ := hframing closing (List.mem_append_right _ (List.mem_singleton_self _))
        exact ⟨⟨codec, d, w, e, some o, some c⟩, by simp [bind, Except.bind, ho, hc]⟩

end

/-- No text of a framing is empty. -/
theorem framingTexts_ne_empty (d : Dialect) : ∀ text ∈ d.framingTexts, text ≠ "" := by
  cases d <;> decide

/-- Looking up names the token of every text, and a classifier is refused if a token of its framing
is missing. Searching does so for the texts of control tokens and the empty text only: for every
text it finds a token that renders as a beginning of it, and this stands for the text only if the
text is a control token. So no classifier is refused, and of the tokens that it reacts to, those of
missing texts do not stand for them. -/
theorem search_names_iff (v : Vocabulary) :
    (∀ text, v.Names text (v.codec.specialTokenId text)) ∧
    (∀ text, v.Names text (v.searching.specialTokenId text) ↔ text ∈ v.specials ∨ text = "") ∧
    (∀ text, text ≠ "" → ∃ id, v.searching.specialTokenId text = .ok id ∧
      (∃ bytes, bytes ≠ [] ∧ bytes <+: Utf8.encode text ∧
        ∀ prior, v.codec.detokenize [id] prior true = .ok bytes) ∧
      (v.Stands text id ↔ text ∈ v.specials)) ∧
    ∀ d w,
      ((∃ s, setup d v.codec w = .ok s) ↔ ∀ text ∈ d.framingTexts, text ∈ v.specials) ∧
        ∃ s, setup d v.searching w = .ok s ∧
          List.Forall₂ (fun text id => v.searching.specialTokenId text = .ok id ∧
            (v.Stands text id ↔ text ∈ v.specials)) d.framingTexts s.framingIds := by
  have hstands : ∀ text id, v.searching.specialTokenId text = .ok id →
      (v.Stands text id ↔ text ∈ v.specials) := fun text id hid =>
    ⟨Vocabulary.mem_of_stands, fun hmem => ((v.firstTokenId_names_iff text).2 (.inl hmem)).stands id
      hid⟩
  refine ⟨v.specialTokenId_names, v.firstTokenId_names_iff, fun text hne => ?found,
    fun d w => ⟨?lookedUp, ?searched⟩⟩
  case found =>
    obtain ⟨id, bytes, hid, hbytes⟩ := v.exists_firstTokenId hne
    exact ⟨id, hid, ⟨bytes, hbytes⟩, hstands text id hid⟩
  case lookedUp =>
    rw [setup_isOk_iff]
    refine forall₂_congr fun text _ => ⟨fun ⟨id, hid⟩ => ?_, Vocabulary.exists_specialTokenId⟩
    exact Vocabulary.mem_of_stands ((v.specialTokenId_names text).stands id hid)
  case searched =>
    have hfinds : ∀ text ∈ d.framingTexts, ∃ id, v.searching.specialTokenId text = .ok id := by
      intro text htext
      obtain ⟨id, -, hid, -⟩ := v.exists_firstTokenId (framingTexts_ne_empty d text htext)
      exact ⟨id, hid⟩
    obtain ⟨s, hs⟩ := setup_isOk_iff.2 hfinds
    exact ⟨s, hs, (found_of_setup hs).imp fun text id hid => ⟨hid, hstands text id hid⟩⟩

/-- A vocabulary that lacks a closing token, and in which one token begins like another. -/
def unclosedVocabulary : Vocabulary :=
  .ofSpecials ["<|im", "<|im_end|>", "<tool_call>"]

theorem search_names_iff_unclosed :
    (∃ id, unclosedVocabulary.searching.specialTokenId "</tool_call>" = .ok id ∧
      (∃ bytes, bytes ≠ [] ∧ bytes <+: Utf8.encode "</tool_call>" ∧
        ∀ prior, unclosedVocabulary.codec.detokenize [id] prior true = .ok bytes) ∧
      ¬ unclosedVocabulary.Stands "</tool_call>" id) ∧
      unclosedVocabulary.Names "<|im_end|>"
        (unclosedVocabulary.searching.specialTokenId "<|im_end|>") ∧
      ¬ ∃ s, setup .qwen unclosedVocabulary.codec ⟨[]⟩ = .ok s := by
  obtain ⟨-, hnames, hfinds, hsetup⟩ := search_names_iff unclosedVocabulary
  obtain ⟨id, hid, hbytes, hstands⟩ := hfinds "</tool_call>" (by decide)
  refine ⟨⟨id, hid, hbytes, hstands.not.2 (by decide)⟩, (hnames _).2 (by decide), ?_⟩
  rw [(hsetup .qwen ⟨[]⟩).1]
  decide

/-- Without any control token, the search takes a less-than sign for the end of the turn; and a
reply ends at the first one. -/
theorem search_finds_byte :
    ¬ (Vocabulary.ofSpecials []).Names "<|im_end|>"
        ((Vocabulary.ofSpecials []).searching.specialTokenId "<|im_end|>") ∧
      (Vocabulary.ofSpecials []).searching.specialTokenId "<|im_end|>" = .ok 60 ∧
      (Vocabulary.ofSpecials []).isControl 60 = false ∧
      (Vocabulary.ofSpecials []).codec.detokenize [60] [] true = .ok (Utf8.encode "<") ∧
      (Vocabulary.ofSpecials []).codec.specialTokenId "<|im_end|>" =
        .error (.unknownSpecial "<|im_end|>") ∧
      classify .qwen (Vocabulary.ofSpecials []).searching ⟨[]⟩ []
        ((Vocabulary.ofSpecials []).encode "a<b") = .ok [.plain "a"] := by
  have hfound : (Vocabulary.ofSpecials []).searching.specialTokenId "<|im_end|>" = .ok 60 := by
    decide +kernel
  refine ⟨fun h => ?_, hfound, by decide, by decide, by decide, by decide +kernel⟩
  have hunknown := h.unknown (by decide)
  rw [hfound] at hunknown
  cases hunknown

end Classifier

end ChatRelay
