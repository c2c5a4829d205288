import ChatRelay.Proofs.Codec.Entries

/-!
# Tokenizing loses nothing

Each token that tokenizing emits stands for the bytes that it takes (`nextToken_entry`), so with
control tokens shown the tokens of every text render to that text (`render_tokens`). Control tokens
that do not show come of special parsing alone: a literal text has none (`controls_literal`), and it
renders to itself either way.
-/

namespace ChatRelay.Vocabulary

variable {v : Vocabulary}

/-- The first token takes at least one byte and stands for the bytes that it takes: if it comes of
special parsing, as long as control tokens are shown. -/
theorem nextToken_entry (v : Vocabulary) {special shown : Bool} (h : special = true → shown = true)
    (b : UInt8) (rest : List UInt8) :
    0 < (v.nextToken special b rest).2 ∧ ∃ e, v.entry (v.nextToken special b rest).1 = .ok e ∧
      e.render shown = (b :: rest).take (v.nextToken special b rest).2 := by
  rcases nextToken_cases v special b rest with
    ⟨i, n, hspecial, hmatch, hnext⟩ | ⟨-, ⟨i, p, hp, hstart, hlong, hnext⟩ | hnext⟩
  · obtain ⟨c, -, hget, hstart, rfl, hpos⟩ := longestMatch?_getElem? hmatch
    rw [Nat.sub_zero, List.getElem?_map, Option.map_eq_some_iff] at hget
    obtain ⟨text, htext, rfl⟩ := hget
    rw [hnext]
    refine ⟨hpos, _, entry_special htext, ?_⟩
    rw [Entry.render, h hspecial, Bool.true_or, if_pos rfl]
    exact List.prefix_iff_eq_take.1 hstart
  · rw [hnext]
    exact ⟨by omega, _, entry_pieceId hp, List.prefix_iff_eq_take.1 hstart⟩
  · rw [hnext]
    exact ⟨Nat.one_pos, _, entry_byteToken v b, rfl⟩

/-- The tokens of a text render to the text. -/
theorem render_tokens (v : Vocabulary) {special shown : Bool} (h : special = true → shown = true)
    (bytes : List UInt8) : v.render shown (v.tokens bytes special) = .ok bytes := by
  induction hlength : bytes.length using Nat.strong_induction_on generalizing bytes with
  | _ n ih =>
    cases bytes with
    | nil => rfl
    | cons b rest =>
      subst hlength
      obtain ⟨hpos, e, hentry, hrender⟩ := nextToken_entry v h b rest
      obtain ⟨n, hn⟩ := Nat.exists_eq_add_of_lt hpos
      have hrest : v.render shown (v.tokens (rest.drop n) special) = .ok (rest.drop n) :=
        ih _ (by rw [List.length_drop, List.length_cons]; omega) _ rfl
      rw [Nat.zero_add] at hn
      rw [hn, List.take_succ_cons] at hrender
      rw [tokens_cons, hn, Nat.add_sub_cancel, render_cons, hentry, Except.bind, hrest, Except.map,
        hrender, List.cons_append, List.take_append_drop]

/-- The codec gives back each text that it has tokenized, whatever came before. -/
theorem detokenize_tokens (v : Vocabulary) {special shown : Bool}
    (h : special = true → shown = true) (bytes : List UInt8) (prior : List TokenId) :
    v.codec.detokenize (v.tokens bytes special) prior shown = .ok bytes :=
  detokenize_of_render (render_tokens v h bytes) prior

/-! ### Emitted ids -/

/-- What renders is in the vocabulary. -/
theorem not_isAbsent_of_render {shown : Bool} {ts : List TokenId} {bytes : List UInt8}
    (h : v.render shown ts = .ok bytes) {t : TokenId} (ht : t ∈ ts) : ¬ v.IsAbsent t := by
  intro habsent
  obtain ⟨xs, ys, rfl⟩ := List.append_of_mem ht
  obtain ⟨-, second, hsecond⟩ := renders_of_append h
  obtain ⟨e, he⟩ := isAbsent_iff.1 habsent
  rw [render_cons, he] at hsecond
  cases hsecond

/-- Every id of a text is in the vocabulary. -/
theorem tokens_present (v : Vocabulary) {bytes : List UInt8} {special : Bool} {t : TokenId}
    (ht : t ∈ v.tokens bytes special) : ¬ v.IsAbsent t := by
  have hshown : special = true → true = true := fun _ => rfl
  exact not_isAbsent_of_render (render_tokens v hshown bytes) ht

/-- No id of a literal text is that of a control token. -/
theorem le_of_mem_literal (v : Vocabulary) {bytes : List UInt8} {t : TokenId}
    (ht : t ∈ v.tokens bytes false) : (v.specials.length : Int) ≤ t := by
  have hpresent := tokens_present v ht
  have htext := List.filter_eq_nil_iff.1 (controls_literal v bytes) t ht
  rcases neg_or_exists_place t with hneg | ⟨n, rfl⟩
  · exact absurd (.inl hneg) hpresent
  · rw [isControl, decide_eq_true_eq] at htext
    show ((v.specials.length : Nat) : Int) ≤ ((n : Nat) : Int)
    have hpos : (0 : Int) ≤ (n : Int) := Int.natCast_nonneg n
    exact Int.not_lt.1 fun hlt => htext ⟨hpos, hlt⟩

end ChatRelay.Vocabulary
