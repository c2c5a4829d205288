import ChatRelay.Proofs.Text.Decoding

/-!
# Reading bytes that may be ill-formed

The bytes of a character after its first one start no character themselves, so what is skipped over
can neither hide a character nor make one up. The characters that are read from a byte string are
those whose bytes stand in it, wherever that is (`characters_eq_filterMap_tails`,
`first?_eq_some_iff`). So what is read as text is the bytes of its characters and nothing else
(`eq_encodeChars_of_decodeChars?`).
-/

namespace ChatRelay.Utf8

/-- The characters that can be read from a byte string. -/
def characters (bs : List UInt8) : List Char :=
  (units bs).reduceOption

/-- The character that a byte string starts with. -/
def first? (bs : List UInt8) : Option Char :=
  (units bs).head?.join

/-! ### Ill-formed pieces -/

theorem trails_iff {b : UInt8} : Trails b ↔ 0x80 ≤ b.toNat ∧ b.toNat ≤ 0xBF := Iff.rfl

theorem lead_of_trails {b : UInt8} (h : Trails b) : lead b = .bad := by
  obtain ⟨hlow, hhigh⟩ := trails_iff.1 h
  unfold lead
  rw [if_neg (by omega), if_pos (by omega)]

theorem units_of_trails {b : UInt8} (h : Trails b) (bs : List UInt8) :
    units (b :: bs) = none :: units bs := by
  rw [units, unitsFrom, lead_of_trails h]
  rfl

theorem first?_of_trails {b : UInt8} (h : Trails b) (bs : List UInt8) :
    first? (b :: bs) = none := by
  rw [first?, units_of_trails h]
  rfl

/-- What a byte that opens a longer character says of the rest of it. -/
inductive Opens (b : UInt8) : Partial → Prop
  | two (hlow : 0xC2 ≤ b.toNat) (hhigh : b.toNat < 0xE0) :
      Opens b ⟨b.toNat - 0xC0, 1, 0x80, 0xBF⟩
  | three (low high : UInt8) (hlow : 0xE0 ≤ b.toNat) (hhigh : b.toNat < 0xF0)
      (hrange : 0x80 ≤ low.toNat ∧ high.toNat ≤ 0xBF) (hlong : b.toNat = 0xE0 → 0xA0 ≤ low.toNat)
      (hscalar : b.toNat = 0xED → high.toNat ≤ 0x9F) : Opens b ⟨b.toNat - 0xE0, 2, low, high⟩
  | four (low high : UInt8) (hlow : 0xF0 ≤ b.toNat) (hhigh : b.toNat ≤ 0xF4)
      (hrange : 0x80 ≤ low.toNat ∧ high.toNat ≤ 0xBF) (hlong : b.toNat = 0xF0 → 0x90 ≤ low.toNat)
      (hscalar : b.toNat = 0xF4 → high.toNat ≤ 0x8F) : Opens b ⟨b.toNat - 0xF0, 3, low, high⟩

theorem opens_of_lead {b : UInt8} {p : Partial} (h : lead b = .opens p) : Opens b p := by
  unfold lead at h
  dsimp only at h
  -- One case for each range of bytes; the two ends of a range differ from its middle.
  split_ifs at h with h80 hC2 hE0 he0 hed hF0 hf0 hF4 hf4 <;> obtain rfl := Lead.opens.inj h
  · exact .two (by omega) hE0
  · have := Opens.three 0xA0 0xBF (b := b) (by omega) (by omega) (by decide) (fun _ => by decide)
      (fun hb => absurd hb (by omega))
    rwa [he0] at this
  · have := Opens.three 0x80 0x9F (b := b) (by omega) (by omega) (by decide)
      (fun hb => absurd hb (by omega)) (fun _ => by decide)
    rwa [hed] at this
  · exact .three 0x80 0xBF (by omega) hF0 (by decide) (fun hb => absurd hb (by omega))
      (fun hb => absurd hb (by omega))
  · have := Opens.four 0x90 0xBF (b := b) (by omega) (by omega) (by decide) (fun _ => by decide)
      (fun hb => absurd hb (by omega))
    rwa [hf0] at this
  · exact .four 0x80 0xBF (by omega) (by omega) (by decide) (fun hb => absurd hb (by omega))
      (fun hb => absurd hb (by omega))
  · have := Opens.four 0x80 0x8F (b := b) (by omega) (by omega) (by decide)
      (fun hb => absurd hb (by omega)) (fun _ => by decide)
    rwa [hf4] at this

/-- A character under way that takes nothing but bytes that trail. -/
def Partial.Narrow (p : Partial) : Prop :=
  ∀ b, p.takes b = true → Trails b

theorem narrow_of_lead {b : UInt8} {p : Partial} (h : lead b = .opens p) : p.Narrow := by
  intro x hx
  obtain ⟨hlow, hhigh⟩ := takes_iff.1 hx
  cases opens_of_lead h with
  | two => exact ⟨hlow, hhigh⟩
  | three low high _ _ hrange => exact trails_iff.2 ⟨hrange.1.trans hlow, hhigh.trans hrange.2⟩
  | four low high _ _ hrange => exact trails_iff.2 ⟨hrange.1.trans hlow, hhigh.trans hrange.2⟩

theorem narrow_further (bits owed : Nat) : Partial.Narrow ⟨bits, owed, 0x80, 0xBF⟩ :=
  fun _ hb => takes_iff.1 hb

/-- A byte that does not go on the character under way is read afresh. -/
theorem unitsFrom_of_not_takes {p : Partial} {b : UInt8} (h : p.takes b = false)
    (bs : List UInt8) : unitsFrom (some p) (b :: bs) = none :: units (b :: bs) := by
  rw [units, unitsFrom, unitsFrom, h]
  rfl

/-- A character under way takes some bytes that trail, and then it is a character or it is not. -/
theorem exists_taken (bs : List UInt8) : ∀ p : Partial, p.Narrow →
    ∃ u taken rest, bs = taken ++ rest ∧ (∀ b ∈ taken, Trails b) ∧
      unitsFrom (some p) bs = u :: units rest := by
  induction bs with
  | nil =>
    intro p _
    exact ⟨none, [], [], rfl, by simp, rfl⟩
  | cons b bs ih =>
    intro p hp
    cases htakes : p.takes b with
    | false =>
      exact ⟨none, [], b :: bs, rfl, by simp, unitsFrom_of_not_takes htakes bs⟩
    | true =>
      have hb := hp b htakes
      by_cases hlast : p.owed = 1
      · refine ⟨some (Char.ofNat (p.extend b)), [b], bs, rfl, by simpa using hb, ?_⟩
        rw [unitsFrom, if_pos htakes, if_pos hlast]
        rfl
      · obtain ⟨u, taken, rest, rfl, htaken, hread⟩ :=
          ih _ (narrow_further (p.extend b) (p.owed - 1))
        refine ⟨u, b :: taken, rest, rfl, List.forall_mem_cons.2 ⟨hb, htaken⟩, ?_⟩
        rw [unitsFrom, if_pos htakes, if_neg hlast, hread]

/-- The first piece of a byte string is its first byte and some that trail. -/
theorem exists_first_piece (b : UInt8) (bs : List UInt8) :
    ∃ u taken rest, bs = taken ++ rest ∧ (∀ x ∈ taken, Trails x) ∧
      units (b :: bs) = u :: units rest := by
  cases hlead : lead b with
  | whole c =>
    refine ⟨some c, [], bs, rfl, by simp, ?_⟩
    rw [units, unitsFrom, hlead]
    rfl
  | opens p =>
    obtain ⟨u, taken, rest, hbs, htaken, hread⟩ := exists_taken bs p (narrow_of_lead hlead)
    exact ⟨u, taken, rest, hbs, htaken, by rw [units_of_opens hlead, hread]⟩
  | bad =>
    refine ⟨none, [], bs, rfl, by simp, ?_⟩
    rw [units, unitsFrom, hlead]
    rfl

/-! ### The characters of a byte string -/

theorem filterMap_tails_of_trails {taken : List UInt8} (h : ∀ b ∈ taken, Trails b)
    (rest : List UInt8) :
    (taken ++ rest).tails.filterMap first? = rest.tails.filterMap first? := by
  induction taken with
  | nil => rfl
  | cons b taken ih =>
    obtain ⟨hb, htaken⟩ := List.forall_mem_cons.1 h
    rw [List.cons_append, List.tails, List.filterMap_cons_none (first?_of_trails hb _), ih htaken]

/-- The characters that are read are those whose bytes stand anywhere in the byte string. -/
theorem characters_eq_filterMap_tails (bs : List UInt8) :
    characters bs = bs.tails.filterMap first? := by
  -- The reader goes from piece to piece; the bytes that it skips start no character.
  induction hn : bs.length using Nat.strong_induction_on generalizing bs with
  | _ n ih =>
    cases bs with
    | nil => rfl
    | cons b bs =>
      obtain ⟨u, taken, rest, rfl, htaken, hread⟩ := exists_first_piece b bs
      have hlen : rest.length < n := by
        rw [List.length_cons, List.length_append] at hn
        omega
      have hfirst : first? (b :: (taken ++ rest)) = u := by
        rw [first?, hread]
        rfl
      rw [characters, hread, List.tails, List.filterMap_cons, hfirst,
        filterMap_tails_of_trails htaken, ← ih _ hlen rest rfl, characters]
      cases u with
      | none => exact List.reduceOption_cons_of_none _
      | some c => exact List.reduceOption_cons_of_some c _

theorem characters_cons (b : UInt8) (bs : List UInt8) :
    characters (b :: bs) = (first? (b :: bs)).toList ++ characters bs := by
  rw [characters_eq_filterMap_tails, characters_eq_filterMap_tails, List.tails,
    List.filterMap_cons]
  cases first? (b :: bs) <;> rfl

/-! ### The bytes of a character that is read -/

theorem val_ofNat {n : Nat} (h : n < 0xD800 ∨ 0xDFFF < n ∧ n < 0x110000) :
    (Char.ofNat n).val.toNat = n := by
  have hn : n.isValidChar := h
  have := Char.toNat_ofNat n
  rwa [if_pos hn] at this

theorem ofNat_eq {n : Nat} {b : UInt8} (h : n = b.toNat) : UInt8.ofNat n = b := by
  rw [h, UInt8.ofNat_toNat]

theorem utf8EncodeChar_one {b : UInt8} (h : b.toNat < 0x80) :
    String.utf8EncodeChar (Char.ofNat b.toNat) = [b] := by
  unfold String.utf8EncodeChar
  rw [val_ofNat (.inl (by omega))]
  dsimp only
  rw [if_pos (by omega), UInt8.ofNat_toNat]

theorem utf8EncodeChar_two {b₁ b₂ : UInt8} (hlow : 0xC2 ≤ b₁.toNat) (hhigh : b₁.toNat < 0xE0)
    (h₂ : Trails b₂) :
    String.utf8EncodeChar (Char.ofNat ((b₁.toNat - 0xC0) * 64 + (b₂.toNat - 0x80))) =
      [b₁, b₂] := by
  rw [trails_iff] at h₂
  unfold String.utf8EncodeChar
  rw [val_ofNat (.inl (by omega))]
  dsimp only
  rw [if_neg (by omega), if_pos (by omega), ofNat_eq (b := b₁) (by omega),
    ofNat_eq (b := b₂) (by omega)]

theorem utf8EncodeChar_three {b₁ b₂ b₃ : UInt8} (hlow : 0xE0 ≤ b₁.toNat)
    (hhigh : b₁.toNat < 0xF0) (h₂ : Trails b₂) (h₃ : Trails b₃)
    (hlong : b₁.toNat = 0xE0 → 0xA0 ≤ b₂.toNat) (hscalar : b₁.toNat = 0xED → b₂.toNat ≤ 0x9F) :
    String.utf8EncodeChar (Char.ofNat
        (((b₁.toNat - 0xE0) * 64 + (b₂.toNat - 0x80)) * 64 + (b₃.toNat - 0x80))) =
      [b₁, b₂, b₃] := by
  rw [trails_iff] at h₂ h₃
  unfold String.utf8EncodeChar
  rw [val_ofNat (by omega)]
  dsimp only
  rw [if_neg (by omega), if_neg (by omega), if_pos (by omega), ofNat_eq (b := b₁) (by omega),
    ofNat_eq (b := b₂) (by omega), ofNat_eq (b := b₃) (by omega)]

theorem utf8EncodeChar_four {b₁ b₂ b₃ b₄ : UInt8} (hlow : 0xF0 ≤ b₁.toNat)
    (hhigh : b₁.toNat ≤ 0xF4) (h₂ : Trails b₂) (h₃ : Trails b₃) (h₄ : Trails b₄)
    (hlong : b₁.toNat = 0xF0 → 0x90 ≤ b₂.toNat) (hscalar : b₁.toNat = 0xF4 → b₂.toNat ≤ 0x8F) :
    String.utf8EncodeChar (Char.ofNat
        ((((b₁.toNat - 0xF0) * 64 + (b₂.toNat - 0x80)) * 64 + (b₃.toNat - 0x80)) * 64
          + (b₄.toNat - 0x80))) =
      [b₁, b₂, b₃, b₄] := by
  rw [trails_iff] at h₂ h₃ h₄
  unfold String.utf8EncodeChar
  rw [val_ofNat (.inr (by omega))]
  dsimp only
  rw [if_neg (by omega), if_neg (by omega), if_neg (by omega), ofNat_eq (b := b₁) (by omega),
    ofNat_eq (b := b₂) (by omega), ofNat_eq (b := b₃) (by omega), ofNat_eq (b := b₄) (by omega)]

/-- Whether the character under way is completed by what follows, and which it is then. -/
def completed? (p : Partial) (bs : List UInt8) : Option Char :=
  (unitsFrom (some p) bs).head?.join

theorem completed?_last {bits : Nat} {low high : UInt8} {bs : List UInt8} {c : Char}
    (h : completed? ⟨bits, 1, low, high⟩ bs = some c) :
    ∃ b rest, bs = b :: rest ∧ (low.toNat ≤ b.toNat ∧ b.toNat ≤ high.toNat) ∧
      c = Char.ofNat (bits * 64 + (b.toNat - 0x80)) := by
  cases bs with
  | nil => cases h
  | cons b rest =>
    by_cases hb : low.toNat ≤ b.toNat ∧ b.toNat ≤ high.toNat
    · rw [completed?, unitsFrom_last bits hb] at h
      exact ⟨b, rest, rfl, hb, (Option.some.inj h).symm⟩
    · rw [completed?, unitsFrom_of_not_takes (Bool.eq_false_iff.2 (mt takes_iff.1 hb))] at h
      cases h

theorem completed?_more {bits owed : Nat} {low high : UInt8} {bs : List UInt8} {c : Char}
    (h : completed? ⟨bits, owed + 2, low, high⟩ bs = some c) :
    ∃ b rest, bs = b :: rest ∧ (low.toNat ≤ b.toNat ∧ b.toNat ≤ high.toNat) ∧
      completed? ⟨bits * 64 + (b.toNat - 0x80), owed + 1, 0x80, 0xBF⟩ rest = some c := by
  cases bs with
  | nil => cases h
  | cons b rest =>
    by_cases hb : low.toNat ≤ b.toNat ∧ b.toNat ≤ high.toNat
    · rw [completed?, unitsFrom_more bits owed hb] at h
      exact ⟨b, rest, rfl, hb, h⟩
    · rw [completed?, unitsFrom_of_not_takes (Bool.eq_false_iff.2 (mt takes_iff.1 hb))] at h
      cases h

theorem isPrefix_of_completed? {b : UInt8} {p : Partial} {bs : List UInt8} {c : Char}
    (hopens : Opens b p) (h : completed? p bs = some c) : String.utf8EncodeChar c <+: b :: bs := by
  cases hopens with
  | two hlow hhigh =>
    obtain ⟨b₂, rest, rfl, h₂, hc⟩ := completed?_last h
    rw [hc, utf8EncodeChar_two hlow hhigh h₂]
    exact ⟨rest, rfl⟩
  | three low high hlow hhigh hrange hlong hscalar =>
    obtain ⟨b₂, rest, rfl, h₂, h⟩ := completed?_more h
    obtain ⟨b₃, rest, rfl, h₃, hc⟩ := completed?_last h
    have htrails : Trails b₂ := trails_iff.2 ⟨hrange.1.trans h₂.1, h₂.2.trans hrange.2⟩
    rw [hc, utf8EncodeChar_three hlow hhigh htrails h₃ (fun hb => (hlong hb).trans h₂.1)
      (fun hb => h₂.2.trans (hscalar hb))]
    exact ⟨rest, rfl⟩
  | four low high hlow hhigh hrange hlong hscalar =>
    obtain ⟨b₂, rest, rfl, h₂, h⟩ := completed?_more h
    obtain ⟨b₃, rest, rfl, h₃, h⟩ := completed?_more h
    obtain ⟨b₄, rest, rfl, h₄, hc⟩ := completed?_last h
    have htrails : Trails b₂ := trails_iff.2 ⟨hrange.1.trans h₂.1, h₂.2.trans hrange.2⟩
    rw [hc, utf8EncodeChar_four hlow hhigh htrails h₃ h₄ (fun hb => (hlong hb).trans h₂.1)
      (fun hb => h₂.2.trans (hscalar hb))]
    exact ⟨rest, rfl⟩

/-- A byte string starts with a character if it starts with its bytes. -/
theorem first?_eq_some_iff {bs : List UInt8} {c : Char} :
    first? bs = some c ↔ String.utf8EncodeChar c <+: bs := by
  constructor
  · intro h
    cases bs with
    | nil => cases h
    | cons b bs =>
      cases hlead : lead b with
      | whole d =>
        rw [first?, units, unitsFrom, hlead] at h
        obtain rfl : d = c := Option.some.inj h
        by_cases hb : b.toNat < 0x80
        · obtain rfl : Char.ofNat b.toNat = d := Lead.whole.inj ((lead_one hb).symm.trans hlead)
          rw [utf8EncodeChar_one hb]
          exact ⟨bs, rfl⟩
        · unfold lead at hlead
          rw [if_neg hb] at hlead
          split_ifs at hlead
      | opens p =>
        rw [first?, units_of_opens hlead] at h
        exact isPrefix_of_completed? (opens_of_lead hlead) h
      | bad =>
        rw [first?, units, unitsFrom, hlead] at h
        cases h
  · rintro ⟨rest, rfl⟩
    rw [first?, units_utf8EncodeChar_append]
    rfl

/-- Only the bytes of a text are read as that text. -/
theorem eq_encodeChars_of_decodeChars? {bs : List UInt8} {cs : List Char}
    (h : decodeChars? bs = some cs) : bs = encodeChars cs := by
  rw [decodeChars?_eq_some_iff] at h
  induction cs generalizing bs with
  | nil =>
    cases bs with
    | nil => rfl
    | cons b bs =>
      obtain ⟨u, taken, rest, -, -, hread⟩ := exists_first_piece b bs
      rw [hread] at h
      cases h
  | cons c cs ih =>
    have hfirst : first? bs = some c := by
      rw [first?, h]
      rfl
    obtain ⟨rest, rfl⟩ := first?_eq_some_iff.1 hfirst
    rw [units_utf8EncodeChar_append] at h
    rw [ih (List.cons.inj h).2, encodeChars, encodeChars, List.flatMap_cons]

end ChatRelay.Utf8
