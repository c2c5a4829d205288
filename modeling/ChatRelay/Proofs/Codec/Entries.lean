import ChatRelay.Proofs.Codec.Tokenizing

/-!
# What ids stand for

Every id of a vocabulary stands for a control token, a byte or a piece (`entry_special`,
`entry_byteToken`, `entry_pieceId`), and all others stand for nothing (`isAbsent_iff`). Rendering
goes id by id, so what the parts of a list render to is what the list renders to (`render_append`),
and a list with an id in it that stands for nothing renders to nothing.
-/

namespace ChatRelay.Vocabulary

variable {v : Vocabulary}

/-! ### Entries -/

theorem entry_special {i : Nat} {text : String} (h : v.specials[i]? = some text) :
    v.entry (i : Int) = .ok (.control text (v.userDefined.contains i)) := by
  have hpos : ¬ (i : Int) < 0 := by omega
  rw [entry, if_neg hpos]
  simp [h]

theorem entry_byteToken (v : Vocabulary) (b : UInt8) :
    v.entry (v.byteToken b) = .ok (.bytes [b]) := by
  have hb := b.toNat_lt
  have hneg : ¬ ((v.specials.length + b.toNat : Nat) : Int) < 0 := by omega
  have hnone : v.specials[v.specials.length + b.toNat]? = none := by simp
  have hbyte : v.specials.length + b.toNat - v.specials.length = b.toNat := by omega
  rw [entry, byteToken, if_neg hneg]
  simp only [Int.toNat_natCast, hnone, hbyte, if_pos hb]
  rw [UInt8.ofNat_toNat]

theorem entry_pieceId {i : Nat} {piece : List UInt8} (h : v.pieces[i]? = some piece) :
    v.entry (v.pieceId i) = .ok (.bytes piece) := by
  have hneg : ¬ ((v.specials.length + 256 + i : Nat) : Int) < 0 := by omega
  have hnone : v.specials[v.specials.length + 256 + i]? = none :=
    List.getElem?_eq_none (by omega)
  have hlarge : ¬ v.specials.length + 256 + i - v.specials.length < 256 := by omega
  have hplace : v.specials.length + 256 + i - v.specials.length - 256 = i := by omega
  rw [entry, pieceId, if_neg hneg]
  simp only [Int.toNat_natCast, hnone, if_neg hlarge, hplace, h]

/-- An id is negative or a place. -/
theorem neg_or_exists_place (t : TokenId) : t < 0 ∨ ∃ n : Nat, t = (n : Int) :=
  (Int.lt_or_le t 0).imp_right Int.eq_ofNat_of_zero_le

/-- A control token is one of the control tokens by its place. -/
theorem exists_special {t : TokenId} (h : v.isControl t = true) :
    ∃ (i : Nat) (text : String), t = (i : Int) ∧ v.specials[i]? = some text := by
  obtain ⟨hpos, hlt⟩ := of_decide_eq_true h
  obtain ⟨i, rfl⟩ := Int.eq_ofNat_of_zero_le hpos
  have hplace : i < v.specials.length := Int.ofNat_lt.1 hlt
  exact ⟨i, v.specials[i], rfl, List.getElem?_eq_getElem hplace⟩

theorem exists_specialIndex? {text : String} (h : text ∈ v.specials) :
    ∃ i, v.specialIndex? text = some i := by
  rw [← Option.isSome_iff_exists, specialIndex?, List.findIdx?_isSome]
  exact List.any_eq_true.2 ⟨text, h, beq_self_eq_true text⟩

/-- A text that is looked up is found where it stands. -/
theorem specials_of_specialIndex? {text : String} {i : Nat} (h : v.specialIndex? text = some i) :
    v.specials[i]? = some text := by
  obtain ⟨hlt, htext, -⟩ := List.findIdx?_eq_some_iff_getElem.1 h
  rw [List.getElem?_eq_getElem hlt]
  exact congrArg some (beq_iff_eq.1 htext)

/-! ### Ids that stand for nothing -/

/-- The number of ids that stand for something. -/
def size (v : Vocabulary) : Nat := v.specials.length + 256 + v.pieces.length

/-- An id that is negative or out of vocabulary. -/
def IsAbsent (v : Vocabulary) (t : TokenId) : Prop := t < 0 ∨ (v.size : Int) ≤ t

theorem isAbsent_natCast {n : Nat} : v.IsAbsent (n : Int) ↔ v.size ≤ n := by
  show ((n : Int) < 0 ∨ (v.size : Int) ≤ (n : Int)) ↔ v.size ≤ n
  omega

/-- These are the ids that stand for nothing. -/
theorem isAbsent_iff {t : TokenId} : v.IsAbsent t ↔ ∃ e, v.entry t = .error e := by
  rcases neg_or_exists_place t with hneg | ⟨n, rfl⟩
  · refine ⟨fun _ => ⟨.negative t, ?_⟩, fun _ => .inl hneg⟩
    rw [entry, if_pos hneg]
  have hpos : ¬ (n : Int) < 0 := by omega
  rw [isAbsent_natCast, size, entry, if_neg hpos, Int.toNat_natCast]
  dsimp only
  -- The three kinds of ids in their order, and what comes after them.
  split
  · next hspecial =>
    have hlt := (List.getElem?_eq_some_iff.1 hspecial).1
    exact iff_of_false (by omega) nofun
  next hspecial =>
  have hle := List.getElem?_eq_none_iff.1 hspecial
  split
  · exact iff_of_false (by omega) nofun
  split
  · next hpiece =>
    have hlt := (List.getElem?_eq_some_iff.1 hpiece).1
    exact iff_of_false (by omega) nofun
  · next hpiece =>
    have hlarge := List.getElem?_eq_none_iff.1 hpiece
    exact iff_of_true (by omega) ⟨_, rfl⟩

/-! ### Rendering -/

theorem render_cons (v : Vocabulary) (shown : Bool) (t : TokenId) (ts : List TokenId) :
    v.render shown (t :: ts) =
      (v.entry t).bind fun e => (v.render shown ts).map (e.render shown ++ ·) := by
  rw [render]
  cases v.entry t with
  | error e => rfl
  | ok e => cases v.render shown ts <;> rfl

theorem render_append (v : Vocabulary) (shown : Bool) (xs ys : List TokenId) :
    v.render shown (xs ++ ys) =
      (v.render shown xs).bind fun first => (v.render shown ys).map (first ++ ·) := by
  induction xs with
  | nil => cases h : v.render shown ys <;> simp [render, h, Except.bind, Except.map]
  | cons t xs ih =>
    rw [List.cons_append, render_cons, render_cons, ih]
    cases v.entry t with
    | error e => rfl
    | ok e =>
      cases v.render shown xs with
      | error e => rfl
      | ok first =>
        cases v.render shown ys with
        | error e => rfl
        | ok second => exact congrArg Except.ok (List.append_assoc _ _ _).symm

/-- The parts of what renders render. -/
theorem renders_of_append {shown : Bool} {xs ys : List TokenId} {bytes : List UInt8}
    (h : v.render shown (xs ++ ys) = .ok bytes) :
    (∃ first, v.render shown xs = .ok first) ∧ ∃ second, v.render shown ys = .ok second := by
  rw [render_append] at h
  cases hx : v.render shown xs with
  | error e => simp [hx, Except.bind] at h
  | ok first =>
    cases hy : v.render shown ys with
    | error e => simp [hx, hy, Except.bind, Except.map] at h
    | ok second => exact ⟨⟨first, rfl⟩, ⟨second, rfl⟩⟩

/-- What a token of the vocabulary renders to. -/
theorem render_single {t : TokenId} {e : Entry} (h : v.entry t = .ok e) (shown : Bool) :
    v.render shown [t] = .ok (e.render shown) := by
  rw [render_cons, h]
  exact congrArg Except.ok (List.append_nil _)

theorem render_byteTokens (v : Vocabulary) (shown : Bool) (bytes : List UInt8) :
    v.render shown (v.byteTokens bytes) = .ok bytes := by
  induction bytes with
  | nil => rfl
  | cons b bytes ih =>
    rw [byteTokens, List.map_cons, ← byteTokens, render_cons, entry_byteToken, Except.bind, ih]
    rfl

/-- What renders, the codec renders, whatever came before. -/
theorem detokenize_of_render {shown : Bool} {ts : List TokenId} {bytes : List UInt8}
    (h : v.render shown ts = .ok bytes) (prior : List TokenId) :
    v.codec.detokenize ts prior shown = .ok bytes := by
  show (v.render shown ts).mapError _ = _
  rw [h]
  rfl

/-- An id that stands for nothing is refused, whatever came before. -/
theorem detokenize_of_isAbsent {t : TokenId} (h : v.IsAbsent t) (prior : List TokenId)
    (shown : Bool) : ∃ e, v.codec.detokenize [t] prior shown = .error e := by
  obtain ⟨e, he⟩ := isAbsent_iff.1 h
  refine ⟨.detokenize e.message, ?_⟩
  show (v.render shown [t]).mapError _ = _
  rw [render_cons, he]
  rfl

end ChatRelay.Vocabulary
