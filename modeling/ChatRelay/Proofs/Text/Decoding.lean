import ChatRelay.Text.Utf8
import Mathlib

/-!
# Reading UTF-8 piece by piece

A byte string that is text by itself ends between two characters, so what follows it is read as if
it stood alone (`decodeChars?_append`): this is what lets a reader settle text as soon as it is
text. And reading undoes writing (`decodeChars?_encodeChars`, `decodeLossy_encode`).
-/

namespace ChatRelay.Utf8

/-! ### Text that is followed by more -/

/-- Where nothing is ill-formed, the bytes that follow are read afresh. -/
theorem unitsFrom_append (xs ys : List UInt8) : ∀ p : Option Partial,
    none ∉ unitsFrom p xs → unitsFrom p (xs ++ ys) = unitsFrom p xs ++ units ys := by
  induction xs with
  | nil =>
    intro p hp
    cases p with
    | none => rfl
    | some p => exact absurd (by simp [unitsFrom]) hp
  | cons b bs ih =>
    intro p hp
    cases p with
    | none =>
      rw [List.cons_append]
      unfold unitsFrom at hp ⊢
      cases hb : lead b with
      | whole c =>
        simp only [hb, List.mem_cons, not_or] at hp ⊢
        rw [ih none hp.2, List.cons_append]
      | opens q =>
        simp only [hb] at hp ⊢
        exact ih (some q) hp
      | bad => simp [hb] at hp
    | some p =>
      rw [List.cons_append]
      unfold unitsFrom at hp ⊢
      by_cases ht : p.takes b = true
      · simp only [ht, if_true] at hp ⊢
        by_cases ho : p.owed = 1
        · simp only [ho, if_true, List.mem_cons, not_or] at hp ⊢
          rw [ih none hp.2, List.cons_append]
        · simp only [ho, if_false] at hp ⊢
          exact ih _ hp
      · simp [ht] at hp

/-- A byte string is text exactly if it holds its characters and nothing else. -/
theorem decodeChars?_eq_some_iff {bs : List UInt8} {cs : List Char} :
    decodeChars? bs = some cs ↔ units bs = cs.map some := by
  unfold decodeChars?
  generalize units bs = us
  induction us generalizing cs with
  | nil => cases cs <;> simp
  | cons u us ih =>
    cases u with
    | none => cases cs <;> simp [List.mapM_cons]
    | some c =>
      cases cs with
      | nil => simp [List.mapM_cons, Option.bind_eq_some_iff]
      | cons d ds =>
        simp only [List.mapM_cons, id_eq, Option.bind_eq_bind, Option.bind_some, List.map_cons,
          List.cons.injEq, Option.some.injEq]
        rw [← ih]
        cases us.mapM id <;> simp

theorem not_mem_units_of_decodeChars? {bs : List UInt8} {cs : List Char}
    (h : decodeChars? bs = some cs) : none ∉ units bs := by
  rw [decodeChars?_eq_some_iff.1 h]
  simp

/-- What follows a text is read as if it stood alone. -/
theorem units_append {xs ys : List UInt8} {cs : List Char} (h : decodeChars? xs = some cs) :
    units (xs ++ ys) = cs.map some ++ units ys := by
  have hn := not_mem_units_of_decodeChars? h
  rw [← decodeChars?_eq_some_iff.1 h]
  exact unitsFrom_append xs ys none hn

theorem decodeChars?_append {xs : List UInt8} {cs : List Char} (h : decodeChars? xs = some cs)
    (ys : List UInt8) : decodeChars? (xs ++ ys) = (decodeChars? ys).map (cs ++ ·) := by
  cases hy : decodeChars? ys with
  | some ds =>
    rw [Option.map_some, decodeChars?_eq_some_iff, units_append h, decodeChars?_eq_some_iff.1 hy,
      List.map_append]
  | none =>
    rw [Option.map_none, Option.eq_none_iff_forall_ne_some]
    intro es he
    rw [decodeChars?_eq_some_iff, units_append h] at he
    obtain ⟨as, bs, -, -, hbs⟩ := List.append_eq_map_iff.1 he
    have := decodeChars?_eq_some_iff.2 hbs.symm
    simp [hy] at this

/-! ### Reading what was written

The bytes of a character by their number. What the first byte of a longer character says is settled
first, and the lemmas on two, three and four bytes follow the bits from there. -/

/-- A byte that can only go on a character. -/
abbrev Trails (b : UInt8) : Prop :=
  (0x80 : UInt8).toNat ≤ b.toNat ∧ b.toNat ≤ (0xBF : UInt8).toNat

theorem takes_iff {p : Partial} {b : UInt8} :
    p.takes b = true ↔ p.low.toNat ≤ b.toNat ∧ b.toNat ≤ p.high.toNat := by
  simp [Partial.takes, UInt8.le_iff_toNat_le]

/-- The last byte that a character owes completes it. -/
theorem unitsFrom_last (bits : Nat) {low high b : UInt8}
    (h : low.toNat ≤ b.toNat ∧ b.toNat ≤ high.toNat) (bs : List UInt8) :
    unitsFrom (some ⟨bits, 1, low, high⟩) (b :: bs) =
      some (Char.ofNat (bits * 64 + (b.toNat - 0x80))) :: units bs := by
  rw [unitsFrom, if_pos (takes_iff.2 h), if_pos rfl]
  rfl

/-- Any other byte that a character owes brings it one byte further. -/
theorem unitsFrom_more (bits owed : Nat) {low high b : UInt8}
    (h : low.toNat ≤ b.toNat ∧ b.toNat ≤ high.toNat) (bs : List UInt8) :
    unitsFrom (some ⟨bits, owed + 2, low, high⟩) (b :: bs) =
      unitsFrom (some ⟨bits * 64 + (b.toNat - 0x80), owed + 1, 0x80, 0xBF⟩) bs := by
  rw [unitsFrom, if_pos (takes_iff.2 h), if_neg (by simp)]
  rfl

theorem units_of_opens {b : UInt8} {p : Partial} (h : lead b = .opens p) (bs : List UInt8) :
    units (b :: bs) = unitsFrom (some p) bs := by
  rw [units, unitsFrom, h]

theorem lead_one {b : UInt8} (h : b.toNat < 0x80) : lead b = .whole (Char.ofNat b.toNat) := by
  unfold lead
  rw [if_pos h]

theorem lead_two {b : UInt8} (hlow : 0xC2 ≤ b.toNat) (hhigh : b.toNat < 0xE0) :
    lead b = .opens ⟨b.toNat - 0xC0, 1, 0x80, 0xBF⟩ := by
  unfold lead
  rw [if_neg (by omega), if_neg (by omega), if_pos hhigh]

/-- A byte that opens a character of three bytes takes the second byte `n` if the two are neither
overlong nor part of a surrogate. -/
theorem lead_three {b : UInt8} {n : Nat} (hlow : 0xE0 ≤ b.toNat) (hhigh : b.toNat < 0xF0)
    (hn : 0x80 ≤ n ∧ n ≤ 0xBF) (hlong : b.toNat = 0xE0 → 0xA0 ≤ n)
    (hscalar : b.toNat = 0xED → n ≤ 0x9F) :
    ∃ low high, lead b = .opens ⟨b.toNat - 0xE0, 2, low, high⟩ ∧
      low.toNat ≤ n ∧ n ≤ high.toNat := by
  unfold lead
  rw [if_neg (by omega), if_neg (by omega), if_neg (by omega)]
  by_cases he0 : b.toNat = 0xE0
  · rw [if_pos he0, he0]
    exact ⟨0xA0, 0xBF, rfl, hlong he0, hn.2⟩
  · rw [if_neg he0]
    by_cases hed : b.toNat = 0xED
    · rw [if_pos hed, hed]
      exact ⟨0x80, 0x9F, rfl, hn.1, hscalar hed⟩
    · rw [if_neg hed, if_pos hhigh]
      exact ⟨0x80, 0xBF, rfl, hn.1, hn.2⟩

/-- A byte that opens a character of four bytes takes the second byte `n` if the two are neither
overlong nor beyond the last character. -/
theorem lead_four {b : UInt8} {n : Nat} (hlow : 0xF0 ≤ b.toNat) (hhigh : b.toNat ≤ 0xF4)
    (hn : 0x80 ≤ n ∧ n ≤ 0xBF) (hlong : b.toNat = 0xF0 → 0x90 ≤ n)
    (hscalar : b.toNat = 0xF4 → n ≤ 0x8F) :
    ∃ low high, lead b = .opens ⟨b.toNat - 0xF0, 3, low, high⟩ ∧
      low.toNat ≤ n ∧ n ≤ high.toNat := by
  unfold lead
  rw [if_neg (by omega), if_neg (by omega), if_neg (by omega), if_neg (by omega),
    if_neg (by omega), if_neg (by omega)]
  by_cases hf0 : b.toNat = 0xF0
  · rw [if_pos hf0, hf0]
    exact ⟨0x90, 0xBF, rfl, hlong hf0, hn.2⟩
  · rw [if_neg hf0]
    by_cases hf4 : b.toNat = 0xF4
    · rw [if_neg (by omega), if_pos hf4, hf4]
      exact ⟨0x80, 0x8F, rfl, hn.1, hscalar hf4⟩
    · rw [if_pos (by omega)]
      exact ⟨0x80, 0xBF, rfl, hn.1, hn.2⟩

theorem units_two {b₁ b₂ : UInt8} {bits : Nat} {low high : UInt8}
    (h₁ : lead b₁ = .opens ⟨bits, 1, low, high⟩)
    (h₂ : low.toNat ≤ b₂.toNat ∧ b₂.toNat ≤ high.toNat) (bs : List UInt8) :
    units (b₁ :: b₂ :: bs) = some (Char.ofNat (bits * 64 + (b₂.toNat - 0x80))) :: units bs := by
  rw [units_of_opens h₁, unitsFrom_last bits h₂]

theorem units_three {b₁ b₂ b₃ : UInt8} {bits : Nat} {low high : UInt8}
    (h₁ : lead b₁ = .opens ⟨bits, 2, low, high⟩)
    (h₂ : low.toNat ≤ b₂.toNat ∧ b₂.toNat ≤ high.toNat) (h₃ : Trails b₃) (bs : List UInt8) :
    units (b₁ :: b₂ :: b₃ :: bs) =
      some (Char.ofNat ((bits * 64 + (b₂.toNat - 0x80)) * 64 + (b₃.toNat - 0x80)))
        :: units bs := by
  rw [units_of_opens h₁, unitsFrom_more bits 0 h₂, unitsFrom_last _ h₃]

theorem units_four {b₁ b₂ b₃ b₄ : UInt8} {bits : Nat} {low high : UInt8}
    (h₁ : lead b₁ = .opens ⟨bits, 3, low, high⟩)
    (h₂ : low.toNat ≤ b₂.toNat ∧ b₂.toNat ≤ high.toNat) (h₃ : Trails b₃) (h₄ : Trails b₄)
    (bs : List UInt8) :
    units (b₁ :: b₂ :: b₃ :: b₄ :: bs) =
      some (Char.ofNat (((bits * 64 + (b₂.toNat - 0x80)) * 64 + (b₃.toNat - 0x80)) * 64
        + (b₄.toNat - 0x80))) :: units bs := by
  rw [units_of_opens h₁, unitsFrom_more bits 1 h₂, unitsFrom_more _ 0 h₃, unitsFrom_last _ h₄]

theorem toNat_ofNat {n : Nat} (h : n < 256) : (UInt8.ofNat n).toNat = n := by
  rw [UInt8.toNat_ofNat', Nat.mod_eq_of_lt h]

/-- The byte that carries the six lowest bits of `n`. -/
theorem trails_ofNat (n : Nat) : Trails (UInt8.ofNat (n % 0x40 + 0x80)) := by
  rw [Trails, toNat_ofNat (by omega)]
  exact ⟨by simp, by simp; omega⟩

/-- The bytes of a character are read as that character. -/
theorem units_utf8EncodeChar_append (c : Char) (bs : List UInt8) :
    units (String.utf8EncodeChar c ++ bs) = some c :: units bs := by
  have hvalid : c.toNat < 0xD800 ∨ 0xDFFF < c.toNat ∧ c.toNat < 0x110000 := c.valid
  have hc : Char.ofNat c.toNat = c := Char.ofNat_toNat c
  unfold String.utf8EncodeChar
  rw [show c.val.toNat = c.toNat from rfl]
  generalize c.toNat = v at hvalid hc
  -- One case for each number of bytes.
  dsimp only
  split_ifs with h1 h2 h3
  · have hb := toNat_ofNat (show v < 256 by omega)
    rw [List.singleton_append, units, unitsFrom, lead_one (by omega), hb, hc]
    rfl
  · have hb := toNat_ofNat (show v / 64 % 0x20 + 0xC0 < 256 by omega)
    have hl := toNat_ofNat (show v % 0x40 + 0x80 < 256 by omega)
    rw [List.cons_append, List.singleton_append,
      units_two (lead_two (by omega) (by omega)) (trails_ofNat v), hb, hl,
      show (v / 64 % 0x20 + 0xC0 - 0xC0) * 64 + (v % 0x40 + 0x80 - 0x80) = v by omega, hc]
  · have hb := toNat_ofNat (show v / 4096 % 0x10 + 0xE0 < 256 by omega)
    have hm := toNat_ofNat (show v / 64 % 0x40 + 0x80 < 256 by omega)
    have hl := toNat_ofNat (show v % 0x40 + 0x80 < 256 by omega)
    obtain ⟨low, high, hlead, hn⟩ := lead_three (b := UInt8.ofNat (v / 4096 % 0x10 + 0xE0))
      (n := v / 64 % 0x40 + 0x80) (by omega) (by omega) (by omega) (by omega) (by omega)
    rw [← hm] at hn
    rw [List.cons_append, List.cons_append, List.singleton_append,
      units_three hlead hn (trails_ofNat v), hb, hm, hl,
      show ((v / 4096 % 0x10 + 0xE0 - 0xE0) * 64 + (v / 64 % 0x40 + 0x80 - 0x80)) * 64
        + (v % 0x40 + 0x80 - 0x80) = v by omega, hc]
  · have hb := toNat_ofNat (show v / 262144 % 0x08 + 0xF0 < 256 by omega)
    have hm := toNat_ofNat (show v / 4096 % 0x40 + 0x80 < 256 by omega)
    have hm' := toNat_ofNat (show v / 64 % 0x40 + 0x80 < 256 by omega)
    have hl := toNat_ofNat (show v % 0x40 + 0x80 < 256 by omega)
    obtain ⟨low, high, hlead, hn⟩ := lead_four (b := UInt8.ofNat (v / 262144 % 0x08 + 0xF0))
      (n := v / 4096 % 0x40 + 0x80) (by omega) (by omega) (by omega) (by omega) (by omega)
    rw [← hm] at hn
    rw [List.cons_append, List.cons_append, List.cons_append, List.singleton_append,
      units_four hlead hn (trails_ofNat (v / 64)) (trails_ofNat v), hb, hm, hm', hl,
      show (((v / 262144 % 0x08 + 0xF0 - 0xF0) * 64 + (v / 4096 % 0x40 + 0x80 - 0x80)) * 64
        + (v / 64 % 0x40 + 0x80 - 0x80)) * 64 + (v % 0x40 + 0x80 - 0x80) = v by omega, hc]

theorem units_encodeChars (cs : List Char) : units (encodeChars cs) = cs.map some := by
  induction cs with
  | nil => rfl
  | cons c cs ih =>
    rw [encodeChars, List.flatMap_cons, units_utf8EncodeChar_append, ← encodeChars, ih,
      List.map_cons]

/-- Reading undoes writing. -/
theorem decodeChars?_encodeChars (cs : List Char) : decodeChars? (encodeChars cs) = some cs :=
  decodeChars?_eq_some_iff.2 (units_encodeChars cs)

theorem decodeLossy_encode (s : String) : decodeLossy (encode s) = s.toList := by
  rw [decodeLossy, encode, units_encodeChars, List.map_map]
  exact List.map_id _

theorem encode_inj {s t : String} (h : encode s = encode t) : s = t := by
  have hchars : decodeChars? (encodeChars s.toList) = decodeChars? (encodeChars t.toList) :=
    congrArg decodeChars? h
  rw [decodeChars?_encodeChars, decodeChars?_encodeChars, Option.some.injEq] at hchars
  exact String.toList_inj.1 hchars

theorem exists_encode_cons {s : String} (h : s ≠ "") : ∃ b rest, encode s = b :: rest := by
  cases hbytes : encode s with
  | nil => exact absurd (encode_inj (t := "") hbytes) h
  | cons b rest => exact ⟨b, rest, rfl⟩

end ChatRelay.Utf8
