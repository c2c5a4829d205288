import ChatRelay.Codec.Vocabulary
import ChatRelay.Proofs.Text.Decoding

/-!
# Tokenizing part by part

Without special parsing a text becomes no control token, and without pieces one token for each byte
(`controls_literal`, `tokens_literal`). With special parsing a text that is followed by another is
tokenized as if it stood alone, if it does not end with the beginning of a control token
(`tokens_append`); and pieces in which no control token can begin leave the control tokens as they
are (`controls_tokens`).
-/

namespace ChatRelay.Vocabulary

/-! ### The longest candidate -/

/-- What is taken is a candidate that the input starts with, by its place, and not empty. -/
theorem longestMatch?_getElem? {input : List UInt8} {candidates : List (List UInt8)}
    {index i n : Nat} (h : longestMatch? input index candidates = some (i, n)) :
    ∃ c, index ≤ i ∧ candidates[i - index]? = some c ∧ c <+: input ∧ c.length = n ∧ 0 < n := by
  induction candidates generalizing index with
  | nil => cases h
  | cons c rest ih =>
    have hlater : longestMatch? input (index + 1) rest = some (i, n) → ∃ d, index ≤ i ∧
        (c :: rest)[i - index]? = some d ∧ d <+: input ∧ d.length = n ∧ 0 < n := by
      intro h
      obtain ⟨d, hle, hget, hd⟩ := ih h
      have hplace : i - index = i - (index + 1) + 1 := by omega
      exact ⟨d, by omega, by rw [hplace, List.getElem?_cons_succ, hget], hd⟩
    rw [longestMatch?] at h
    split at h
    · exact hlater h
    · next hc =>
      rw [Bool.or_eq_true, not_or, Bool.not_eq_true', Bool.not_eq_false, List.isEmpty_iff,
        List.isPrefixOf_iff_prefix] at hc
      have hhere : some (index, c.length) = some (i, n) → ∃ d, index ≤ i ∧
          (c :: rest)[i - index]? = some d ∧ d <+: input ∧ d.length = n ∧ 0 < n := by
        intro h
        obtain ⟨rfl, rfl⟩ := Prod.mk.inj (Option.some.inj h)
        exact ⟨c, Nat.le_refl _, by rw [Nat.sub_self]; rfl, hc.2, rfl, List.length_pos_iff.2 hc.1⟩
      split at h
      · next hrest =>
        split at h
        · exact hlater (hrest.trans h)
        · exact hhere h
      · exact hhere h

theorem longestMatch?_eq_some {input : List UInt8} {candidates : List (List UInt8)}
    {index i n : Nat} (h : longestMatch? input index candidates = some (i, n)) :
    ∃ c ∈ candidates, c <+: input ∧ c.length = n ∧ 0 < n ∧ i < index + candidates.length := by
  obtain ⟨c, hle, hget, hstart, hlength, hpos⟩ := longestMatch?_getElem? h
  obtain ⟨hlt, -⟩ := List.getElem?_eq_some_iff.1 hget
  exact ⟨c, List.mem_of_getElem? hget, hstart, hlength, hpos, by omega⟩

/-- Where the input starts with a candidate, one is taken that is no shorter. -/
theorem exists_longestMatch? {input c : List UInt8} {candidates : List (List UInt8)}
    (hc : c ∈ candidates) (hstart : c <+: input) (hne : c ≠ []) (index : Nat) :
    ∃ i n, longestMatch? input index candidates = some (i, n) ∧ c.length ≤ n := by
  induction candidates generalizing index with
  | nil => cases hc
  | cons d rest ih =>
    rw [longestMatch?]
    rcases List.mem_cons.1 hc with rfl | hc
    · have hhere : ¬ (c.isEmpty || !c.isPrefixOf input) = true := by
        simp [hne, List.isPrefixOf_iff_prefix.2 hstart]
      rw [if_neg hhere]
      split
      · next i n _ =>
        by_cases hlength : c.length ≤ n
        · exact ⟨i, n, if_pos hlength, hlength⟩
        · exact ⟨index, c.length, if_neg hlength, Nat.le_refl _⟩
      · exact ⟨index, c.length, rfl, Nat.le_refl _⟩
    · obtain ⟨i, n, hlater, hlength⟩ := ih hc (index + 1)
      simp only [hlater]
      split
      · exact ⟨i, n, rfl, hlength⟩
      · split
        · exact ⟨i, n, rfl, hlength⟩
        · next hshort => exact ⟨index, d.length, rfl, by omega⟩

/-- Inputs that start with the same candidates are matched alike. -/
theorem longestMatch?_congr {x y : List UInt8} {candidates : List (List UInt8)}
    (h : ∀ c ∈ candidates, c <+: x ↔ c <+: y) (index : Nat) :
    longestMatch? x index candidates = longestMatch? y index candidates := by
  induction candidates generalizing index with
  | nil => rfl
  | cons c rest ih =>
    obtain ⟨hc, hrest⟩ := List.forall_mem_cons.1 h
    have hstart : c.isPrefixOf x = c.isPrefixOf y := by
      rw [Bool.eq_iff_iff, List.isPrefixOf_iff_prefix, List.isPrefixOf_iff_prefix, hc]
    rw [longestMatch?, longestMatch?, ih hrest, hstart]

/-! ### One token after the other -/

theorem tokensAfter_eq_drop (v : Vocabulary) (special : Bool) (skip : Nat) (bytes : List UInt8) :
    v.tokensAfter special skip bytes = v.tokens (bytes.drop skip) special := by
  induction bytes generalizing skip with
  | nil => cases skip <;> rfl
  | cons b bytes ih =>
    cases skip with
    | zero => rfl
    | succ skip => rw [tokensAfter, ih, List.drop_succ_cons]

@[simp] theorem tokens_nil (v : Vocabulary) (special : Bool) : v.tokens [] special = [] := rfl

/-- The first token takes some bytes, and what is left is tokenized by itself. -/
theorem tokens_cons (v : Vocabulary) (special : Bool) (b : UInt8) (rest : List UInt8) :
    v.tokens (b :: rest) special =
      (v.nextToken special b rest).1 ::
        v.tokens (rest.drop ((v.nextToken special b rest).2 - 1)) special := by
  rw [tokens, tokensAfter]
  exact congrArg _ (tokensAfter_eq_drop ..)

/-- The first token is a control token that comes next, a piece that comes next, or a byte. -/
theorem nextToken_cases (v : Vocabulary) (special : Bool) (b : UInt8) (rest : List UInt8) :
    (∃ i n, special = true ∧
        longestMatch? (b :: rest) 0 (v.specials.map Utf8.encode) = some (i, n) ∧
          v.nextToken special b rest = ((i : Int), n)) ∨
      (special = true → longestMatch? (b :: rest) 0 (v.specials.map Utf8.encode) = none) ∧
        ((∃ i p, v.pieces[i]? = some p ∧ p <+: b :: rest ∧ 1 < p.length ∧
            v.nextToken special b rest = (v.pieceId i, p.length)) ∨
          v.nextToken special b rest = (v.byteToken b, 1)) := by
  rw [nextToken]
  split
  · next i n h =>
    cases special with
    | false => cases h
    | true => exact .inl ⟨i, n, rfl, h, rfl⟩
  · next hnone =>
    refine .inr ⟨fun hspecial => ?_, ?_⟩
    · rwa [if_pos hspecial] at hnone
    · split
      · next i n h =>
        obtain ⟨p, -, hp, hstart, rfl, -⟩ := longestMatch?_getElem? h
        by_cases hlong : 1 < p.length
        · exact .inl ⟨i, p, hp, hstart, hlong, if_pos hlong⟩
        · exact .inr (if_neg hlong)
      · exact .inr rfl

/-- The first token takes no more bytes than there are. -/
theorem nextToken_le (v : Vocabulary) (special : Bool) (b : UInt8) (rest : List UInt8) :
    (v.nextToken special b rest).2 ≤ (b :: rest).length := by
  rcases nextToken_cases v special b rest with ⟨i, n, -, h, hnext⟩ | ⟨-, h | h⟩
  · obtain ⟨c, -, hstart, rfl, -⟩ := longestMatch?_eq_some h
    rw [hnext]
    exact hstart.length_le
  · obtain ⟨i, p, -, hstart, -, hnext⟩ := h
    rw [hnext]
    exact hstart.length_le
  · rw [h]
    simp

/-! ### Control tokens -/

/-- Whether an id is that of a control token. -/
def isControl (v : Vocabulary) (t : TokenId) : Bool :=
  decide ((0 : Int) ≤ t ∧ t < (v.specials.length : Int))

/-- The control tokens among ids, in order. -/
def controls (v : Vocabulary) (ids : List TokenId) : List TokenId :=
  ids.filter v.isControl

variable {v : Vocabulary}

theorem isControl_byteToken (b : UInt8) : v.isControl (v.byteToken b) = false := by
  rw [isControl, decide_eq_false_iff_not]
  show ¬ ((0 : Int) ≤ (v.specials.length + b.toNat : Nat) ∧
    ((v.specials.length + b.toNat : Nat) : Int) < (v.specials.length : Int))
  omega

theorem isControl_pieceId (i : Nat) : v.isControl (v.pieceId i) = false := by
  rw [isControl, decide_eq_false_iff_not]
  show ¬ ((0 : Int) ≤ (v.specials.length + 256 + i : Nat) ∧
    ((v.specials.length + 256 + i : Nat) : Int) < (v.specials.length : Int))
  omega

theorem isControl_of_match {input : List UInt8} {i n : Nat}
    (h : longestMatch? input 0 (v.specials.map Utf8.encode) = some (i, n)) :
    v.isControl (i : Int) = true := by
  obtain ⟨-, -, -, -, -, hi⟩ := longestMatch?_eq_some h
  rw [List.length_map] at hi
  rw [isControl, decide_eq_true_eq]
  show (0 : Int) ≤ (i : Int) ∧ (i : Int) < (v.specials.length : Int)
  omega

theorem controls_cons_of_control {t : TokenId} (h : v.isControl t = true) (ids : List TokenId) :
    v.controls (t :: ids) = t :: v.controls ids := List.filter_cons_of_pos h

theorem controls_cons_of_text {t : TokenId} (h : v.isControl t = false) (ids : List TokenId) :
    v.controls (t :: ids) = v.controls ids := List.filter_cons_of_neg (by simp [h])

theorem controls_append (ids others : List TokenId) :
    v.controls (ids ++ others) = v.controls ids ++ v.controls others := List.filter_append ..

/-! ### Literal text -/

/-- Literal text becomes no control token. -/
theorem controls_literal (v : Vocabulary) (bytes : List UInt8) :
    v.controls (v.tokens bytes false) = [] := by
  induction h : bytes.length using Nat.strong_induction_on generalizing bytes with
  | _ n ih =>
    cases bytes with
    | nil => rfl
    | cons b rest =>
      subst h
      have hrest := ih _ (by rw [List.length_drop, List.length_cons]; omega)
        (rest.drop ((v.nextToken false b rest).2 - 1)) rfl
      have hid : v.isControl (v.nextToken false b rest).1 = false := by
        rcases nextToken_cases v false b rest with ⟨i, n, h, -⟩ | ⟨-, ⟨i, p, -, -, -, h⟩ | h⟩
        · cases h
        · rw [h]
          exact isControl_pieceId i
        · rw [h]
          exact isControl_byteToken b
      rw [tokens_cons, controls_cons_of_text hid, hrest]

/-- Without pieces, literal text becomes one token for each byte. -/
theorem tokens_literal (hv : v.pieces = []) (bytes : List UInt8) :
    v.tokens bytes false = v.byteTokens bytes := by
  induction bytes with
  | nil => rfl
  | cons b rest ih =>
    have hnext : v.nextToken false b rest = (v.byteToken b, 1) := by
      rw [nextToken, hv]
      rfl
    rw [tokens_cons, hnext, Nat.sub_self, List.drop_zero, ih]
    rfl

/-! ### Control text -/

/-- The bytes do not end with the beginning of a control token. -/
def Closed (v : Vocabulary) (bytes : List UInt8) : Prop :=
  ∀ t ∈ bytes.tails, t ≠ [] → ∀ s ∈ v.specials, t <+: Utf8.encode s → t = Utf8.encode s

instance (v : Vocabulary) (bytes : List UInt8) : Decidable (v.Closed bytes) := by
  unfold Closed
  infer_instance

theorem Closed.drop {bytes : List UInt8} (h : v.Closed bytes) (n : Nat) :
    v.Closed (bytes.drop n) := by
  intro t ht
  rw [List.mem_tails] at ht
  exact h t ((List.mem_tails ..).2 (ht.trans (List.drop_suffix n bytes)))

/-- Bytes before a text with a byte that is in no control token do not matter. -/
theorem Closed.append_ofList {b : UInt8} (hb : ∀ s ∈ v.specials, b ∉ Utf8.encode s)
    {cs : List Char} (hmem : b ∈ Utf8.encodeChars cs) (h : v.Closed (Utf8.encodeChars cs))
    (xs : List UInt8) : v.Closed (xs ++ Utf8.encode (String.ofList cs)) := by
  rw [Utf8.encode, String.toList_ofList]
  intro t ht hne s hs hstart
  rw [List.mem_tails] at ht
  rcases List.suffix_or_suffix_of_suffix ht (List.suffix_append xs _) with hsuffix | hsuffix
  · exact h t ((List.mem_tails ..).2 hsuffix) hne s hs hstart
  · exact absurd (hstart.subset (hsuffix.subset hmem)) (hb s hs)

/-- Without pieces, control text that does not end with the beginning of a control token is
tokenized as if nothing followed. -/
theorem tokens_append (hv : v.pieces = []) {xs : List UInt8} (hx : v.Closed xs)
    (ys : List UInt8) : v.tokens (xs ++ ys) true = v.tokens xs true ++ v.tokens ys true := by
  induction h : xs.length using Nat.strong_induction_on generalizing xs with
  | _ n ih =>
    cases xs with
    | nil => rfl
    | cons b rest =>
      subst h
      -- A control token at the start does not reach beyond the text.
      have hmatch : longestMatch? (b :: (rest ++ ys)) 0 (v.specials.map Utf8.encode) =
          longestMatch? (b :: rest) 0 (v.specials.map Utf8.encode) := by
        refine longestMatch?_congr (List.forall_mem_map.2 fun s hs => ⟨fun h => ?_, fun h => ?_⟩) 0
        · have hown : b :: rest <+: b :: (rest ++ ys) := List.prefix_append (b :: rest) ys
          rcases List.prefix_or_prefix_of_prefix h hown with h | h
          · exact h
          · rw [hx (b :: rest) ((List.mem_tails ..).2 (List.suffix_refl _)) (by simp) s hs h]
        · exact h.trans (List.prefix_append (b :: rest) ys)
      have hnext : v.nextToken true b (rest ++ ys) = v.nextToken true b rest := by
        rw [nextToken, nextToken, hv, hmatch]
        rfl
      have hle := nextToken_le v true b rest
      rw [List.length_cons] at hle
      have hdrop : (rest ++ ys).drop ((v.nextToken true b rest).2 - 1) =
          rest.drop ((v.nextToken true b rest).2 - 1) ++ ys :=
        List.drop_append_of_le_length (by omega)
      have hclosed : v.Closed (rest.drop ((v.nextToken true b rest).2 - 1)) := by
        have := hx.drop ((v.nextToken true b rest).2 - 1 + 1)
        rwa [List.drop_succ_cons] at this
      rw [List.cons_append, tokens_cons, hnext, hdrop,
        ih _ (by rw [List.length_drop, List.length_cons]; omega) hclosed rfl, tokens_cons v true b]
      rfl

/-! ### Pieces -/

section
variable {opens : UInt8 → Prop} (hspecials : ∀ s ∈ v.specials, ∀ b ∈ (Utf8.encode s).head?, opens b)
include hspecials

/-- Where no control token can begin, there is none. -/
theorem longestMatch?_specials_eq_none {b : UInt8} (hb : ¬ opens b) (rest : List UInt8) :
    longestMatch? (b :: rest) 0 (v.specials.map Utf8.encode) = none := by
  cases h : longestMatch? (b :: rest) 0 (v.specials.map Utf8.encode) with
  | none => rfl
  | some m =>
    obtain ⟨i, n⟩ := m
    obtain ⟨c, hc, hstart, rfl, hpos, -⟩ := longestMatch?_eq_some h
    obtain ⟨s, hs, rfl⟩ := List.mem_map.1 hc
    obtain ⟨d, ds, hd⟩ := List.exists_cons_of_length_pos hpos
    rw [hd, List.cons_prefix_cons] at hstart
    obtain ⟨rfl, -⟩ := hstart
    exact absurd (hspecials s hs d (by rw [hd]; rfl)) hb

/-- Bytes in which no control token can begin leave the control tokens after them as they are. -/
theorem controls_tokens_append (hv : v.pieces = []) {xs : List UInt8} (hx : ∀ b ∈ xs, ¬ opens b)
    (special : Bool) (ys : List UInt8) :
    v.controls (v.tokens (xs ++ ys) special) = v.controls (v.tokens ys special) := by
  induction xs with
  | nil => rfl
  | cons b xs ih =>
    obtain ⟨hb, hrest⟩ := List.forall_mem_cons.1 hx
    have hnone := longestMatch?_specials_eq_none hspecials hb (xs ++ ys)
    have hnext : v.nextToken special b (xs ++ ys) = (v.byteToken b, 1) := by
      rw [nextToken, hnone, hv]
      cases special <;> rfl
    rw [List.cons_append, tokens_cons, hnext, controls_cons_of_text (isControl_byteToken b)]
    exact ih hrest

/-- Pieces in which no control token can begin leave the control tokens as they are. -/
theorem controls_tokens (hpieces : ∀ p ∈ v.pieces, ∀ b ∈ p, ¬ opens b) (special : Bool)
    (bytes : List UInt8) :
    v.controls (v.tokens bytes special) =
      v.controls ((ofSpecials v.specials).tokens bytes special) := by
  induction h : bytes.length using Nat.strong_induction_on generalizing bytes with
  | _ n ih =>
    cases bytes with
    | nil => rfl
    | cons b rest =>
      subst h
      have hrest : ∀ k, v.controls (v.tokens (rest.drop k) special) =
          v.controls ((ofSpecials v.specials).tokens (rest.drop k) special) := fun k =>
        ih _ (by rw [List.length_drop, List.length_cons]; omega) _ rfl
      rcases nextToken_cases v special b rest with ⟨i, n, hspecial, hmatch, hnext⟩ | ⟨hnone, h⟩
      · -- The same control token comes next in both.
        have hown : (ofSpecials v.specials).nextToken special b rest = ((i : Int), n) := by
          rw [nextToken, hspecial]
          simp only [if_true, ofSpecials, hmatch]
        have hid := isControl_of_match hmatch
        rw [tokens_cons, tokens_cons, hnext, hown, controls_cons_of_control hid,
          controls_cons_of_control hid, hrest]
      · rcases h with ⟨i, p, hp, hstart, hlong, hnext⟩ | hnext
        · -- The bytes of the piece hold no control token.
          obtain ⟨ys, hys⟩ := hstart
          have hdrop : rest.drop (p.length - 1) = ys := by
            have := congrArg (List.drop p.length) hys
            rw [List.drop_left, show p.length = p.length - 1 + 1 by omega,
              List.drop_succ_cons] at this
            exact this.symm
          have hskip := controls_tokens_append (v := ofSpecials v.specials) hspecials rfl
            (hpieces p (List.mem_of_getElem? hp)) special ys
          rw [← hys, show v.controls _ = (ofSpecials v.specials).controls _ from hskip,
            hys, tokens_cons, hnext, controls_cons_of_text (isControl_pieceId i), hrest, hdrop]
          rfl
        · have hown : (ofSpecials v.specials).nextToken special b rest =
              ((ofSpecials v.specials).byteToken b, 1) := by
            rw [nextToken]
            cases special with
            | false => rfl
            | true =>
              simp only [if_true, ofSpecials, hnone rfl]
              rfl
          have hbyte : v.isControl ((ofSpecials v.specials).byteToken b) = false :=
            isControl_byteToken (v := ofSpecials v.specials) b
          rw [tokens_cons, tokens_cons, hnext, hown, controls_cons_of_text (isControl_byteToken b),
            controls_cons_of_text hbyte, hrest]

end

end ChatRelay.Vocabulary
