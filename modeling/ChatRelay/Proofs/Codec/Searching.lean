import ChatRelay.Proofs.Codec.Lossless

/-!
# Control tokens by name

A codec has to find the control token of a text. A vocabulary looks the text up; a codec without a
table tokenizes the text and takes the first id. Of a text that is a control token this is one of
that text (`stands_firstTokenId`). But any other text is tokenized as well, and so the search finds
the token of its beginning instead of failing (`firstTokenId_names_iff`).
-/

namespace ChatRelay.Vocabulary

/-- The codec of a vocabulary if control tokens have to be searched for. -/
def searching (v : Vocabulary) : TokenCodec :=
  { v.codec with specialTokenId := TokenCodec.firstTokenId v.codec.tokenize }

/-- A control token that renders as the text, whatever came before. -/
def Stands (v : Vocabulary) (text : String) (id : TokenId) : Prop :=
  v.isControl id = true ∧ ∀ prior, v.codec.detokenize [id] prior true = .ok (Utf8.encode text)

/-- What a codec is to answer when it is asked for the control token of a text. -/
structure Names (v : Vocabulary) (text : String) (answer : Except EngineError TokenId) : Prop where
  stands : ∀ id, answer = .ok id → v.Stands text id
  unknown : text ∉ v.specials → answer = .error (.unknownSpecial text)

variable {v : Vocabulary} {text : String}

/-! ### Looking up -/

theorem stands_of_getElem? {i : Nat} (h : v.specials[i]? = some text) :
    v.Stands text (i : Int) := by
  obtain ⟨hlt, -⟩ := List.getElem?_eq_some_iff.1 h
  refine ⟨decide_eq_true ⟨Int.natCast_nonneg i, Int.ofNat_lt.2 hlt⟩, fun prior => ?_⟩
  exact detokenize_of_render (render_single (entry_special h) true) prior

/-- Only the texts of control tokens have a token that stands for them. -/
theorem mem_of_stands {id : TokenId} (h : v.Stands text id) : text ∈ v.specials := by
  obtain ⟨hcontrol, hrender⟩ := h
  obtain ⟨i, name, rfl, hname⟩ := exists_special hcontrol
  have hown := (stands_of_getElem? hname).2 []
  rw [hrender [], Except.ok.injEq] at hown
  rw [Utf8.encode_inj hown]
  exact List.mem_of_getElem? hname

/-- Looking a text up names its token. -/
theorem specialTokenId_names (v : Vocabulary) (text : String) :
    v.Names text (v.codec.specialTokenId text) := by
  simp only [codec]
  cases h : v.specialIndex? text with
  | none => exact ⟨nofun, fun _ => rfl⟩
  | some i =>
    have hplace := specials_of_specialIndex? h
    refine ⟨fun id hid => ?_, fun hmem => absurd (List.mem_of_getElem? hplace) hmem⟩
    obtain rfl := Except.ok.inj hid
    exact stands_of_getElem? hplace

theorem exists_specialTokenId (h : text ∈ v.specials) :
    ∃ id, v.codec.specialTokenId text = .ok id := by
  obtain ⟨i, hi⟩ := exists_specialIndex? h
  exact ⟨i, by simp [codec, hi]⟩

/-! ### Searching -/

theorem firstTokenId_empty (v : Vocabulary) :
    v.searching.specialTokenId "" = .error (.unknownSpecial "") := rfl

theorem firstTokenId_of_encode {b : UInt8} {rest : List UInt8} (h : Utf8.encode text = b :: rest) :
    v.searching.specialTokenId text = .ok (v.nextToken true b rest).1 := by
  show TokenCodec.firstTokenId _ text = _
  rw [TokenCodec.firstTokenId, h]
  show (Except.ok (v.tokens (b :: rest) true)).bind _ = _
  rw [tokens_cons]
  rfl

/-- What is found renders as a beginning of the text, and there is always something found. -/
theorem exists_firstTokenId (v : Vocabulary) (h : text ≠ "") :
    ∃ id bytes, v.searching.specialTokenId text = .ok id ∧ bytes ≠ [] ∧
      bytes <+: Utf8.encode text ∧ ∀ prior, v.codec.detokenize [id] prior true = .ok bytes := by
  obtain ⟨b, rest, hbytes⟩ := Utf8.exists_encode_cons h
  obtain ⟨hpos, e, hentry, hrender⟩ := nextToken_entry v (fun _ => rfl) b rest
  refine ⟨_, _, firstTokenId_of_encode hbytes, ?_, ?_,
    detokenize_of_render (render_single hentry true)⟩
  · rw [hrender]
    exact List.ne_nil_of_length_pos (by rw [List.length_take, List.length_cons]; omega)
  · rw [hrender, hbytes]
    exact List.take_prefix _ _

/-- The text of a control token is found, whatever other control tokens begin with it or it begins
with. -/
theorem stands_firstTokenId (hmem : text ∈ v.specials) (hne : text ≠ "") :
    ∃ id, v.searching.specialTokenId text = .ok id ∧ v.Stands text id := by
  obtain ⟨b, rest, hbytes⟩ := Utf8.exists_encode_cons hne
  refine ⟨_, firstTokenId_of_encode hbytes, ?_⟩
  obtain ⟨i, n, hmatch, hlong⟩ := exists_longestMatch? (List.mem_map_of_mem hmem)
    (List.prefix_refl (Utf8.encode text)) (by rw [hbytes]; nofun) 0
  obtain ⟨c, -, hget, hstart, rfl, -⟩ := longestMatch?_getElem? hmatch
  -- No candidate reaches beyond the text, so the longest one is the text.
  rw [Nat.sub_zero, List.getElem?_map, Option.map_eq_some_iff] at hget
  obtain ⟨name, hname, rfl⟩ := hget
  obtain rfl : name = text := Utf8.encode_inj (hstart.eq_of_length_le hlong)
  have hnext : v.nextToken true b rest = ((i : Int), (Utf8.encode name).length) := by
    rw [nextToken, ← hbytes]
    simp only [if_true, hmatch]
  rw [hnext]
  exact stands_of_getElem? hname

/-- The search names the token exactly of the texts of control tokens; and it fails on the empty
text alone. -/
theorem firstTokenId_names_iff (v : Vocabulary) (text : String) :
    v.Names text (v.searching.specialTokenId text) ↔ text ∈ v.specials ∨ text = "" := by
  by_cases hne : text = ""
  · subst hne
    rw [firstTokenId_empty]
    exact iff_of_true ⟨nofun, fun _ => rfl⟩ (.inr rfl)
  by_cases hmem : text ∈ v.specials
  · obtain ⟨id, hid, hstands⟩ := stands_firstTokenId hmem hne
    refine iff_of_true ⟨fun id' hid' => ?_, fun h => absurd hmem h⟩ (.inl hmem)
    rw [hid, Except.ok.injEq] at hid'
    exact hid' ▸ hstands
  · obtain ⟨id, bytes, hid, -⟩ := exists_firstTokenId v hne
    refine iff_of_false (fun h => ?_) (not_or.2 ⟨hmem, hne⟩)
    have hunknown := h.unknown hmem
    rw [hid] at hunknown
    cases hunknown

end ChatRelay.Vocabulary
