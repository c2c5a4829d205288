import ChatRelay.Proofs.Text.Lines
import ChatRelay.Text.Base64

/-!
# Base64 read back

A digit stands for six bits and no other character does (`value?_eq_some_iff`). Three bytes are cut
into four digits and put together again, and so are the one or two bytes under padding, where the
bits that belong to no byte are zero. So the strict reader takes exactly what is written
(`decode?_eq_some_iff`): each byte string has one written form, and that has no blanks in it
(`trim_encode`).
-/

namespace ChatRelay.Base64

variable {n : Nat} {a b c d : Char} {cs : List Char} {bytes : List UInt8}

/-! ### Digits -/

theorem value?_digit (h : n < 64) : value? (digit n) = some n := by
  have hall : ∀ n < 64, value? (digit n) = some n := by decide
  exact hall n h

theorem digit_ne_pad (n : Nat) : digit n ≠ '=' := by
  by_cases h : n < 64
  · have hall : ∀ n < 64, digit n ≠ '=' := by decide
    exact hall n h
  · rw [digit, if_neg (by omega), if_neg (by omega), if_neg (by omega), if_neg (by omega)]
    decide

/-- Only a digit has a value. -/
theorem value?_eq_some_iff : value? c = some n ↔ n < 64 ∧ digit n = c := by
  refine ⟨fun h => ?_, fun ⟨hn, hc⟩ => hc ▸ value?_digit hn⟩
  have hrange : ∀ lo hi : Char, lo ≤ c ∧ c ≤ hi → lo.toNat ≤ c.toNat ∧ c.toNat ≤ hi.toNat :=
    fun lo hi h => h
  unfold value? at h
  split at h
  · next hc =>
    have := hrange _ _ hc
    simp only [Char.reduceToNat] at this
    obtain rfl := Option.some.inj h
    refine ⟨by omega, ?_⟩
    rw [digit, if_pos (by omega), Nat.sub_add_cancel (by omega), Char.ofNat_toNat]
  split at h
  · next hc =>
    have := hrange _ _ hc
    simp only [Char.reduceToNat] at this
    obtain rfl := Option.some.inj h
    refine ⟨by omega, ?_⟩
    rw [digit, if_neg (by omega), if_pos (by omega), Nat.sub_add_cancel (by omega),
      Char.ofNat_toNat]
  split at h
  · next hc =>
    have := hrange _ _ hc
    simp only [Char.reduceToNat] at this
    obtain rfl := Option.some.inj h
    refine ⟨by omega, ?_⟩
    rw [digit, if_neg (by omega), if_neg (by omega), if_pos (by omega), Nat.add_sub_cancel,
      Char.ofNat_toNat]
  split at h
  · next hc =>
    obtain rfl := Option.some.inj h
    exact ⟨by omega, hc ▸ rfl⟩
  split at h
  · next hc =>
    obtain rfl := Option.some.inj h
    exact ⟨by omega, hc ▸ rfl⟩
  · cases h

/-! ### Groups -/

theorem toNat_ofNat_of_lt (h : n < 256) : (UInt8.ofNat n).toNat = n :=
  UInt8.toNat_ofNat_of_lt h

/-- Under two padding signs stands one byte. -/
theorem decodeOne?_eq_some_iff :
    decodeOne? a b = some bytes ↔ ∃ x : UInt8, bytes = [x] ∧
      a = digit (x.toNat / 4) ∧ b = digit (x.toNat % 4 * 16) := by
  constructor
  · intro h
    simp only [decodeOne?, Option.bind_eq_bind, Option.bind_eq_some_iff] at h
    obtain ⟨x, hx, y, hy, h⟩ := h
    split at h
    · next hzero =>
      obtain rfl := Option.some.inj h
      obtain ⟨hxlt, rfl⟩ := value?_eq_some_iff.1 hx
      obtain ⟨hylt, rfl⟩ := value?_eq_some_iff.1 hy
      refine ⟨_, rfl, ?_⟩
      rw [toNat_ofNat_of_lt (by omega)]
      exact ⟨congrArg digit (by omega), congrArg digit (by omega)⟩
    · cases h
  · rintro ⟨x, rfl, rfl, rfl⟩
    have hx := x.toNat_lt
    simp only [decodeOne?, value?_digit (show x.toNat / 4 < 64 by omega),
      value?_digit (show x.toNat % 4 * 16 < 64 by omega), Option.bind_eq_bind, Option.bind_some]
    rw [if_pos (by omega), show x.toNat / 4 * 4 + x.toNat % 4 * 16 / 16 = x.toNat by omega,
      UInt8.ofNat_toNat]

/-- Under one padding sign stand two bytes. -/
theorem decodeTwo?_eq_some_iff :
    decodeTwo? a b c = some bytes ↔ ∃ x y : UInt8, bytes = [x, y] ∧
      a = digit (x.toNat / 4) ∧ b = digit (x.toNat % 4 * 16 + y.toNat / 16) ∧
        c = digit (y.toNat % 16 * 4) := by
  constructor
  · intro h
    simp only [decodeTwo?, Option.bind_eq_bind, Option.bind_eq_some_iff] at h
    obtain ⟨x, hx, y, hy, z, hz, h⟩ := h
    split at h
    · next hzero =>
      obtain rfl := Option.some.inj h
      obtain ⟨hxlt, rfl⟩ := value?_eq_some_iff.1 hx
      obtain ⟨hylt, rfl⟩ := value?_eq_some_iff.1 hy
      obtain ⟨hzlt, rfl⟩ := value?_eq_some_iff.1 hz
      refine ⟨_, _, rfl, ?_⟩
      rw [toNat_ofNat_of_lt (by omega), toNat_ofNat_of_lt (by omega)]
      exact ⟨congrArg digit (by omega), congrArg digit (by omega), congrArg digit (by omega)⟩
    · cases h
  · rintro ⟨x, y, rfl, rfl, rfl, rfl⟩
    have hx := x.toNat_lt
    have hy := y.toNat_lt
    simp only [decodeTwo?, value?_digit (show x.toNat / 4 < 64 by omega),
      value?_digit (show x.toNat % 4 * 16 + y.toNat / 16 < 64 by omega),
      value?_digit (show y.toNat % 16 * 4 < 64 by omega), Option.bind_eq_bind, Option.bind_some]
    rw [if_pos (by omega),
      show x.toNat / 4 * 4 + (x.toNat % 4 * 16 + y.toNat / 16) / 16 = x.toNat by omega,
      show (x.toNat % 4 * 16 + y.toNat / 16) % 16 * 16 + y.toNat % 16 * 4 / 4 = y.toNat by omega,
      UInt8.ofNat_toNat, UInt8.ofNat_toNat]

/-- A full group holds three bytes. -/
theorem decodeThree?_eq_some_iff :
    decodeThree? a b c d = some bytes ↔ ∃ x y z : UInt8, bytes = [x, y, z] ∧
      a = digit (x.toNat / 4) ∧ b = digit (x.toNat % 4 * 16 + y.toNat / 16) ∧
        c = digit (y.toNat % 16 * 4 + z.toNat / 64) ∧ d = digit (z.toNat % 64) := by
  constructor
  · intro h
    simp only [decodeThree?, Option.bind_eq_bind, Option.bind_eq_some_iff] at h
    obtain ⟨x, hx, y, hy, z, hz, w, hw, h⟩ := h
    obtain rfl := Option.some.inj h
    obtain ⟨hxlt, rfl⟩ := value?_eq_some_iff.1 hx
    obtain ⟨hylt, rfl⟩ := value?_eq_some_iff.1 hy
    obtain ⟨hzlt, rfl⟩ := value?_eq_some_iff.1 hz
    obtain ⟨hwlt, rfl⟩ := value?_eq_some_iff.1 hw
    refine ⟨_, _, _, rfl, ?_⟩
    rw [toNat_ofNat_of_lt (by omega), toNat_ofNat_of_lt (by omega), toNat_ofNat_of_lt (by omega)]
    exact ⟨congrArg digit (by omega), congrArg digit (by omega), congrArg digit (by omega),
      congrArg digit (by omega)⟩
  · rintro ⟨x, y, z, rfl, rfl, rfl, rfl, rfl⟩
    have hx := x.toNat_lt
    have hy := y.toNat_lt
    have hz := z.toNat_lt
    simp only [decodeThree?, value?_digit (show x.toNat / 4 < 64 by omega),
      value?_digit (show x.toNat % 4 * 16 + y.toNat / 16 < 64 by omega),
      value?_digit (show y.toNat % 16 * 4 + z.toNat / 64 < 64 by omega),
      value?_digit (show z.toNat % 64 < 64 by omega), Option.bind_eq_bind, Option.bind_some]
    rw [show x.toNat / 4 * 4 + (x.toNat % 4 * 16 + y.toNat / 16) / 16 = x.toNat by omega,
      show (x.toNat % 4 * 16 + y.toNat / 16) % 16 * 16 + (y.toNat % 16 * 4 + z.toNat / 64) / 4 =
        y.toNat by omega,
      show (y.toNat % 16 * 4 + z.toNat / 64) % 4 * 64 + z.toNat % 64 = z.toNat by omega,
      UInt8.ofNat_toNat, UInt8.ofNat_toNat, UInt8.ofNat_toNat]

/-! ### Texts -/

/-- What is written is read back. -/
theorem decode?_encode (bytes : List UInt8) : decode? (encode bytes) = some bytes := by
  induction bytes using encode.induct with
  | case1 => rfl
  | case2 x =>
    rw [encode, decode?, if_pos ⟨rfl, rfl⟩, if_pos rfl, decodeOne?_eq_some_iff]
    exact ⟨x, rfl, rfl, rfl⟩
  | case3 x y =>
    rw [encode, decode?, if_pos ⟨rfl, rfl⟩, if_neg (digit_ne_pad _), decodeTwo?_eq_some_iff]
    exact ⟨x, y, rfl, rfl, rfl, rfl⟩
  | case4 x y z rest ih =>
    have hthree := decodeThree?_eq_some_iff.2 ⟨x, y, z, rfl, rfl, rfl, rfl, rfl⟩
    rw [encode, decode?, if_neg fun h => digit_ne_pad _ h.2, hthree]
    simp [ih]

/-- Nothing else is read. -/
theorem eq_encode_of_decode? (h : decode? cs = some bytes) : cs = encode bytes := by
  induction cs using decode?.induct generalizing bytes with
  | case1 =>
    obtain rfl := Option.some.inj h
    rfl
  | case2 a b d rest hlast =>
    obtain ⟨rfl, rfl⟩ := hlast
    rw [decode?, if_pos ⟨rfl, rfl⟩, if_pos rfl, decodeOne?_eq_some_iff] at h
    obtain ⟨x, rfl, rfl, rfl⟩ := h
    rfl
  | case3 a b c d rest hlast hc =>
    obtain ⟨rfl, rfl⟩ := hlast
    rw [decode?, if_pos ⟨rfl, rfl⟩, if_neg hc, decodeTwo?_eq_some_iff] at h
    obtain ⟨x, y, rfl, rfl, rfl, rfl⟩ := h
    rfl
  | case4 a b c d rest hlast hnone =>
    rw [decode?, if_neg hlast, hnone] at h
    cases h
  | case5 a b c d rest hlast group hgroup ih =>
    rw [decode?, if_neg hlast, hgroup] at h
    obtain ⟨others, hothers, rfl⟩ := Option.map_eq_some_iff.1 h
    obtain ⟨x, y, z, rfl, rfl, rfl, rfl, rfl⟩ := decodeThree?_eq_some_iff.1 hgroup
    rw [ih hothers]
    rfl
  | case6 cs hnil hfour =>
    rw [decode?] at h
    · cases h
    · exact hnil
    · exact hfour

/-- The reader takes exactly what is written. -/
theorem decode?_eq_some_iff : decode? cs = some bytes ↔ cs = encode bytes :=
  ⟨eq_encode_of_decode?, fun h => h ▸ decode?_encode bytes⟩

/-- What holds of every digit and of the padding holds of every character that is written. -/
theorem forall_mem_encode {p : Char → Prop} (hdigit : ∀ n, p (digit n)) (hpad : p '=')
    (bytes : List UInt8) : ∀ c ∈ encode bytes, p c := by
  induction bytes using encode.induct with
  | case1 => nofun
  | case2 x => simp [encode, hdigit, hpad]
  | case3 x y => simp [encode, hdigit, hpad]
  | case4 x y z rest ih => simpa [encode, hdigit] using ih

/-- Every character that is written is a visible one of ASCII. -/
theorem visible_of_mem_encode {bytes : List UInt8} :
    ∀ c ∈ encode bytes, 0x20 < c.toNat ∧ c.toNat < 0x7F := by
  refine forall_mem_encode (fun n => ?_) (by decide) bytes
  by_cases h : n < 64
  · have hall : ∀ n < 64, 0x20 < (digit n).toNat ∧ (digit n).toNat < 0x7F := by decide
    exact hall n h
  · rw [digit, if_neg (by omega), if_neg (by omega), if_neg (by omega), if_neg (by omega)]
    decide

/-- There is nothing to trim. -/
theorem trim_encode (bytes : List UInt8) : Text.trim (encode bytes) = encode bytes := by
  have hblank : ∀ x ∈ encode bytes, Text.isBlank x = false := by
    intro x hx
    have hvisible := visible_of_mem_encode x hx
    simp only [Text.isBlank, Bool.or_eq_false_iff, Bool.and_eq_false_iff, decide_eq_false_iff_not,
      beq_eq_false_iff_ne]
    omega
  exact Text.trim_of_tight ⟨fun x hx => hblank x (List.mem_of_mem_head? hx),
    fun x hx => hblank x (List.mem_of_getLast? hx)⟩

end ChatRelay.Base64
