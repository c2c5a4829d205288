import ChatRelay.Json.Record
import ChatRelay.Json.Text
import ChatRelay.Proofs.Text.Digits

/-!
# Written texts are read as trees

A text spells a tree if it is read as that tree wherever a value may stand (`Spells`): the reader
takes the text, all of it and nothing of what follows. What the writers of numbers, strings, arrays
and records produce spells a tree, provided the parts do (`spells_integer`, `spells_string`,
`spells_array`, `spells_record`), so that every writer which is put together from them can be read
back. A record with something else behind it is no text of one value (`ofChars?_record_append`).
-/

namespace ChatRelay.Json

/-! ### Numerals -/

/-- The digits of a number that fits a word are absorbed, and none is left. -/
theorem absorb_digits {ds : List Char} {word : Nat} (hds : ∀ d ∈ ds, d.isDigit = true)
    (h : Nat.ofDigitChars 10 ds word ≤ Numeral.wordLimit) :
    Numeral.absorb word ds = (Nat.ofDigitChars 10 ds word, []) := by
  induction ds generalizing word with
  | nil => rfl
  | cons d ds ih =>
    rw [Nat.ofDigitChars_cons] at h ⊢
    have hstep : word * 10 + (d.toNat - '0'.toNat) = 10 * word + (d.toNat - '0'.toNat) := by
      rw [Nat.mul_comm]
    have hle : 10 * word + (d.toNat - '0'.toNat) ≤ Numeral.wordLimit :=
      Nat.le_trans (Integer.le_ofDigitChars ds _) h
    rw [Numeral.absorb, hstep, if_pos hle]
    exact ih (fun e he => hds e (List.mem_cons_of_mem d he)) h

/-- The numeral that an integer is written as. -/
def Numeral.ofInt (n : Int) : Numeral := ⟨decide (n < 0), Integer.digits n.natAbs, none, none⟩

/-- An integer in range is kept exactly. -/
theorem Numeral.number?_ofInt {n : Int} (h : InRange n) :
    (Numeral.ofInt n).number? = some (.int n h) := by
  have hword := Integer.ofDigitChars_digits n.natAbs
  have hfits : n.natAbs ≤ Numeral.wordLimit := by
    obtain ⟨hlow, hhigh⟩ := h
    simp only [Numeral.wordLimit]
    omega
  have habsorb : Numeral.absorb 0 (Integer.digits n.natAbs) = (n.natAbs, []) := by
    rw [absorb_digits (fun d hd => Integer.digits_isDigit hd) (by rwa [hword]), hword]
  have hzero : ¬ (decide (n < 0) = true ∧ n.natAbs = 0) := by
    rintro ⟨hneg, habs⟩
    have := of_decide_eq_true hneg
    omega
  have hsigned : (if decide (n < 0) = true then -(n.natAbs : Int) else n.natAbs) = n := by
    split
    · next hneg =>
      have := of_decide_eq_true hneg
      omega
    · next hneg =>
      have : ¬ n < 0 := fun hlt => hneg (decide_eq_true hlt)
      omega
  have hkept : ∀ m, m = n → (if hm : InRange m then some (Number.int m hm) else none) =
      some (.int n h) := by
    rintro _ rfl
    exact dif_pos h
  have hinteger : (Numeral.ofInt n).integer? = some (.int n h) := by
    simp only [Numeral.integer?, Numeral.ofInt, Option.isSome_none, Bool.false_eq_true, or_self,
      if_false, habsorb, hzero]
    exact hkept _ hsigned
  rw [Numeral.number?, hinteger]

namespace Numeral

/-- Digits, and at least one. -/
structure IsRun (ds : List Char) : Prop where
  ne_nil : ds ≠ []
  digits : ∀ d ∈ ds, d.isDigit = true

/-- The text of a fraction, if there is one. -/
def fractionText : Option (List Char) → List Char
  | none => []
  | some ds => '.' :: ds

/-- The text of an exponent, if there is one, always with its sign. -/
def exponentText : Option (Bool × List Char) → List Char
  | none => []
  | some (minus, ds) => 'e' :: (if minus then '-' else '+') :: ds

/-- The text of a numeral after its sign. -/
def unsignedText (n : Numeral) : List Char :=
  n.whole ++ (fractionText n.fraction ++ exponentText n.exponent)

/-- The text of a numeral. -/
def text (n : Numeral) : List Char :=
  if n.negative then '-' :: n.unsignedText else n.unsignedText

/-- A numeral as the grammar has it. -/
structure WellFormed (n : Numeral) : Prop where
  whole : IsRun n.whole
  /-- Only a zero alone starts with a zero. -/
  leading : ∀ d e ds, n.whole = d :: e :: ds → d ≠ '0'
  fraction : ∀ ds ∈ n.fraction, IsRun ds
  exponent : ∀ x ∈ n.exponent, IsRun x.2

theorem isRun_digits (n : Nat) : IsRun (Integer.digits n) :=
  ⟨Integer.digits_ne_nil n, fun _ hd => Integer.digits_isDigit hd⟩

theorem IsRun.head? {ds : List Char} (h : IsRun ds) :
    ∃ d es, ds = d :: es ∧ d.isDigit = true := by
  obtain ⟨d, es, rfl⟩ := List.exists_cons_of_ne_nil h.ne_nil
  exact ⟨d, es, rfl, h.digits d (List.mem_cons_self ..)⟩

theorem wellFormed_ofInt (n : Int) : (ofInt n).WellFormed where
  whole := isRun_digits n.natAbs
  leading := Integer.digits_head_ne_zero n.natAbs
  fraction := nofun
  exponent := nofun

theorem text_ofInt (n : Int) : (ofInt n).text = Integer.text n := by
  rw [text, unsignedText, ofInt, Integer.text]
  simp only [decide_eq_true_eq, fractionText, exponentText, List.append_nil]

end Numeral

namespace Tree

/-! ### Texts that spell a tree -/

/-- What may follow a value: nothing, a comma, or the end of an array or object. -/
def EndsValue (rest : Input) : Prop :=
  ∀ u ∈ rest.head?, u = some ',' ∨ u = some ']' ∨ u = some '\x7d'

/-- A text that is read as a tree wherever a value may stand. A value has fewer levels than
characters, so its length is fuel enough. -/
def Spells (cs : List Char) (t : Tree) : Prop :=
  ∀ n rest, cs.length ≤ n → EndsValue rest → readValue? n (cs.map some ++ rest) = some (t, rest)

theorem endsValue_nil : EndsValue [] := by
  intro u hu
  cases hu

theorem endsValue_comma (rest : Input) : EndsValue (some ',' :: rest) := by
  intro u hu
  exact .inl (Option.some.inj hu).symm

theorem endsValue_bracket (rest : Input) : EndsValue (some ']' :: rest) := by
  intro u hu
  exact .inr (.inl (Option.some.inj hu).symm)

theorem endsValue_brace (rest : Input) : EndsValue (some '\x7d' :: rest) := by
  intro u hu
  exact .inr (.inr (Option.some.inj hu).symm)

/-- What is spelled alone is the whole text. -/
theorem Spells.ofChars? {cs : List Char} {t : Tree} (h : Spells cs t) : ofChars? cs = some t := by
  have hread := h (2 * (cs.map some).length + 1) [] (by rw [List.length_map]; omega) endsValue_nil
  rw [List.append_nil] at hread
  rw [Tree.ofChars?, read?, hread]
  rfl

/-! ### Numbers -/

/-- What may follow digits: anything but another one. -/
def EndsDigits (rest : Input) : Prop :=
  ∀ c, rest.head? = some (some c) → c.isDigit = false

/-- What may follow the whole part and the fraction: an exponent, or what ends a value. -/
def EndsFraction (rest : Input) : Prop :=
  EndsDigits rest ∧ rest.head? ≠ some (some '.')

theorem EndsValue.endsFraction {rest : Input} (h : EndsValue rest) : EndsFraction rest := by
  constructor
  · intro c hc
    rcases h (some c) hc with h | h | h <;> cases h <;> rfl
  · intro hpoint
    rcases h (some '.') hpoint with h | h | h <;> cases h

theorem endsFraction_exponent {rest : Input} (h : EndsValue rest)
    (x : Option (Bool × List Char)) :
    EndsFraction ((Numeral.exponentText x).map some ++ rest) := by
  cases x with
  | none => exact h.endsFraction
  | some x =>
    constructor
    · rintro _ ⟨⟩
      rfl
    · rintro ⟨⟩

theorem endsDigits_fraction {rest : Input} (h : EndsFraction rest) (f : Option (List Char)) :
    EndsDigits ((Numeral.fractionText f).map some ++ rest) := by
  cases f with
  | none => exact h.1
  | some ds =>
    rintro _ ⟨⟩
    rfl

theorem takeDigits_append {ds : List Char} {rest : Input} (hds : ∀ d ∈ ds, d.isDigit = true)
    (hrest : EndsDigits rest) : takeDigits (ds.map some ++ rest) = (ds, rest) := by
  induction ds with
  | nil =>
    cases rest with
    | nil => rfl
    | cons u rest =>
      cases u with
      | none => rfl
      | some c => simp [takeDigits, hrest c rfl]
  | cons d ds ih =>
    have hd := hds d (List.mem_cons_self ..)
    rw [List.map_cons, List.cons_append, takeDigits, if_pos hd,
      ih fun e he => hds e (List.mem_cons_of_mem d he)]

theorem readWhole?_append {ds : List Char} (hds : Numeral.IsRun ds)
    (hleading : ∀ d e es, ds = d :: e :: es → d ≠ '0') {rest : Input} (h : EndsDigits rest) :
    readWhole? (ds.map some ++ rest) = some (ds, rest) := by
  rw [readWhole?, takeDigits_append hds.digits h]
  split
  · next heq => exact absurd (Prod.mk.inj heq).1 hds.ne_nil
  · next heq => exact absurd rfl (hleading _ _ _ (Prod.mk.inj heq).1)
  · next ds s _ _ heq => rw [(Prod.mk.inj heq).1, (Prod.mk.inj heq).2]

theorem readFraction?_append {f : Option (List Char)} (hf : ∀ ds ∈ f, Numeral.IsRun ds)
    {rest : Input} (h : EndsFraction rest) :
    readFraction? ((Numeral.fractionText f).map some ++ rest) = some (f, rest) := by
  cases f with
  | none =>
    show readFraction? rest = some (none, rest)
    unfold readFraction?
    split
    · exact absurd rfl h.2
    · rfl
  | some ds =>
    have hds := hf ds rfl
    show readFraction? (some '.' :: (ds.map some ++ rest)) = some (some ds, rest)
    rw [readFraction?, takeDigits_append hds.digits h.1]
    split
    · next heq => exact absurd (Prod.mk.inj heq).1 hds.ne_nil
    · next heq => rw [(Prod.mk.inj heq).1, (Prod.mk.inj heq).2]

theorem readExponent?_append {x : Option (Bool × List Char)} (hx : ∀ y ∈ x, Numeral.IsRun y.2)
    {rest : Input} (h : EndsValue rest) :
    readExponent? ((Numeral.exponentText x).map some ++ rest) = some (x, rest) := by
  cases x with
  | none =>
    show readExponent? rest = some (none, rest)
    unfold readExponent?
    split
    · next c s => rcases h (some c) rfl with h | h | h <;> cases h <;> rfl
    · rfl
  | some x =>
    obtain ⟨minus, ds⟩ := x
    have hds : Numeral.IsRun ds := hx _ rfl
    have hsign : readSign (some (if minus then '-' else '+') :: (ds.map some ++ rest)) =
        (minus, ds.map some ++ rest) := by cases minus <;> rfl
    show readExponent? (some 'e' :: some (if minus then '-' else '+') :: (ds.map some ++ rest)) = _
    rw [readExponent?, if_pos (.inl rfl), hsign]
    simp only [takeDigits_append hds.digits h.endsFraction.1]
    split
    · next heq => exact absurd (Prod.mk.inj heq).1 hds.ne_nil
    · next heq => rw [(Prod.mk.inj heq).1, (Prod.mk.inj heq).2]

/-- A written numeral is read as it is. -/
theorem readNumeral?_text {n : Numeral} (hn : n.WellFormed) {rest : Input} (h : EndsValue rest) :
    readNumeral? (n.text.map some ++ rest) = some (n, rest) := by
  have hexponent := readExponent?_append hn.exponent h
  have hfraction := readFraction?_append hn.fraction (endsFraction_exponent h n.exponent)
  have hwhole := readWhole?_append hn.whole hn.leading
    (endsDigits_fraction (endsFraction_exponent h n.exponent) n.fraction)
  have htext : n.unsignedText.map some ++ rest =
      n.whole.map some ++ ((Numeral.fractionText n.fraction).map some ++
        ((Numeral.exponentText n.exponent).map some ++ rest)) := by
    simp only [Numeral.unsignedText, List.map_append, List.append_assoc]
  have hminus : ∀ s, n.unsignedText.map some ++ rest ≠ some '-' :: s := by
    intro s hs
    obtain ⟨d, es, hd, hdigit⟩ := hn.whole.head?
    rw [htext, hd] at hs
    obtain rfl : d = '-' := Option.some.inj (List.cons.inj hs).1
    exact absurd hdigit (by decide)
  obtain ⟨negative, whole, fraction, exponent⟩ := n
  rw [Numeral.text]
  cases negative with
  | true =>
    rw [if_pos rfl, List.map_cons, List.cons_append, readNumeral?, htext]
    simp only [hwhole, hfraction, hexponent, Option.bind_eq_bind, Option.bind_some]
  | false =>
    rw [if_neg Bool.false_ne_true, readNumeral?]
    · rw [htext]
      simp only [hwhole, hfraction, hexponent, Option.bind_eq_bind, Option.bind_some]
    · exact hminus

/-! ### Strings -/

/-- The piece that a character of a string is read as. -/
def pieceOf (c : Char) : Piece :=
  if c.toNat < 0x20 ∧ c ∉ ['\x08', '\x0c', '\n', '\r', '\t'] then .unit c.toNat else .plain (some c)

theorem hexValue?_digitChar : ∀ n < 16, hexValue? (Nat.digitChar n) = some n := by decide

/-- A written character is read as its piece. -/
theorem readPieces?_escapedChar (c : Char) (s : Input) :
    readPieces? ((escapedChar c).map some ++ s) =
      (readPieces? s).map fun p => (pieceOf c :: p.1, p.2) := by
  by_cases hshort : c ∈ ['"', '\\', '\x08', '\x0c', '\n', '\r', '\t']
  · -- A character with a short form.
    simp only [List.mem_cons, List.not_mem_nil, or_false] at hshort
    rcases hshort with rfl | rfl | rfl | rfl | rfl | rfl | rfl <;> rfl
  · simp only [List.mem_cons, List.not_mem_nil, or_false, not_or] at hshort
    obtain ⟨hquote, hslash, hb, hf, hn, hr, ht⟩ := hshort
    by_cases hlow : c.toNat < 0x20
    · have hescaped : escapedChar c = ['\\', 'u', '0', '0', Nat.digitChar (c.toNat / 16),
          Nat.digitChar (c.toNat % 16)] := by
        simp [escapedChar, hquote, hslash, hb, hf, hn, hr, ht, hlow]
      have hunit : hexUnit? '0' '0' (Nat.digitChar (c.toNat / 16)) (Nat.digitChar (c.toNat % 16)) =
          some c.toNat := by
        simp only [hexUnit?, hexValue?_digitChar _ (show c.toNat / 16 < 16 by omega),
          hexValue?_digitChar _ (show c.toNat % 16 < 16 by omega),
          show hexValue? '0' = some 0 from rfl, Option.bind_eq_bind, Option.bind_some]
        congr 1
        omega
      have hpiece : pieceOf c = .unit c.toNat := by simp [pieceOf, hlow, hb, hf, hn, hr, ht]
      simp [hescaped, readPieces?, hunit, hpiece]
    · have hescaped : escapedChar c = [c] := by
        simp [escapedChar, hquote, hslash, hb, hf, hn, hr, ht, hlow]
      have hpiece : pieceOf c = .plain (some c) := by simp [pieceOf, hlow]
      rw [hescaped, hpiece, List.map_singleton, List.singleton_append, readPieces?]
      · rw [if_neg hlow]
      · exact hquote
      · exact fun _ _ _ _ _ _ hc => hslash hc
      · exact fun _ _ _ hc => hslash hc
      · exact hslash

theorem readPieces?_quoted (cs : List Char) (rest : Input) :
    readPieces? ((cs.flatMap escapedChar).map some ++ some '"' :: rest) =
      some (cs.map pieceOf, rest) := by
  induction cs with
  | nil => rfl
  | cons c cs ih =>
    rw [List.flatMap_cons, List.map_append, List.append_assoc, readPieces?_escapedChar, ih]
    rfl

/-- A unit that is no surrogate stands for itself. -/
theorem joinPairs_unit_cons {n : Nat} (h : n < 0xD800) (ps : List Piece) :
    joinPairs (.unit n :: ps) = some (Char.ofNat n) :: joinPairs ps := by
  have hhigh : ¬ 0xD800 ≤ n := by omega
  cases ps with
  | nil => simp [joinPairs, hhigh]
  | cons p ps => cases p <;> simp [joinPairs, hhigh]

theorem joinPairs_pieceOf (cs : List Char) : joinPairs (cs.map pieceOf) = cs.map some := by
  induction cs with
  | nil => rfl
  | cons c cs ih =>
    rw [List.map_cons, List.map_cons, ← ih]
    unfold pieceOf
    split
    · next h => rw [joinPairs_unit_cons (by omega), Char.ofNat_toNat]
    · rfl

/-- A written string is read as its characters. -/
theorem readString?_quoted (cs : List Char) (rest : Input) :
    readString? ((cs.flatMap escapedChar).map some ++ some '"' :: rest) =
      some (cs.map some, rest) := by
  rw [readString?, readPieces?_quoted]
  exact congrArg (fun units => some (units, rest)) (joinPairs_pieceOf cs)

/-! ### Values -/

/-- Blanks before a value change nothing. -/
theorem skipSpace_skipSpace (s : Input) : skipSpace (skipSpace s) = skipSpace s := by
  fun_induction skipSpace s with
  | case1 c rest h ih => exact ih
  | case2 c rest h => rw [skipSpace, if_neg h]
  | case3 s h => rw [skipSpace]; exact h

theorem readValue?_skipSpace (n : Nat) (s : Input) :
    readValue? n (skipSpace s) = readValue? n s := by
  cases n with
  | zero => rfl
  | succ n => rw [readValue?, readValue?, skipSpace_skipSpace]

theorem readItems?_skipSpace (n : Nat) (s : Input) :
    readItems? n (skipSpace s) = readItems? n s := by
  cases n with
  | zero => rfl
  | succ n => rw [readItems?, readItems?, readValue?_skipSpace]

/-- No value starts with a closing bracket. -/
theorem readValue?_bracket (n : Nat) {s rest : Input} (h : skipSpace s = some ']' :: rest) :
    readValue? n s = none := by
  cases n with
  | zero => rfl
  | succ n =>
    rw [readValue?, h]
    rfl

/-- Fuel for a text is one more than fuel for what comes after its first character. -/
theorem exists_fuel {k n : Nat} (h : k + 1 ≤ n) : ∃ m, n = m + 1 ∧ k ≤ m :=
  ⟨n - 1, by omega, by omega⟩

theorem spells_null : Spells ['n', 'u', 'l', 'l'] .null := by
  intro n rest hn _
  obtain ⟨m, rfl, -⟩ := exists_fuel hn
  rfl

theorem spells_bool (b : Bool) : Spells (boolText b) (.bool b) := by
  intro n rest hn _
  cases b <;>
  · obtain ⟨m, rfl, -⟩ := exists_fuel hn
    rfl

/-- What starts like a number is read as one. -/
theorem readValue?_numeral {c : Char} (h : c = '-' ∨ c.isDigit = true) (n : Nat) (rest : Input) :
    readValue? (n + 1) (some c :: rest) =
      (readNumeral? (some c :: rest)).map fun p => (.num p.1, p.2) := by
  have hc : isSpace c = false ∧ c ≠ '"' ∧ c ≠ '[' ∧ c ≠ '\x7b' ∧ c ≠ 'n' ∧ c ≠ 't' ∧ c ≠ 'f' := by
    rcases h with rfl | h
    · decide
    · refine ⟨?_, ?_, ?_, ?_, ?_, ?_, ?_⟩
      · rw [isSpace]
        simp only [Bool.or_eq_false_iff, beq_eq_false_iff_ne]
        refine ⟨⟨⟨?_, ?_⟩, ?_⟩, ?_⟩ <;> (rintro rfl; exact absurd h (by decide))
      all_goals (rintro rfl; exact absurd h (by decide))
  obtain ⟨hspace, hquote, hbracket, hbrace, hn, ht, hf⟩ := hc
  simp [readValue?, skipSpace, hspace, hquote, hbracket, hbrace, hn, ht, hf]

theorem spells_numeral {n : Numeral} (hn : n.WellFormed) : Spells n.text (.num n) := by
  intro k rest hk hrest
  have hread := readNumeral?_text hn hrest
  obtain ⟨c, cs, htext, hc⟩ : ∃ c cs, n.text = c :: cs ∧ (c = '-' ∨ c.isDigit = true) := by
    obtain ⟨d, es, hd, hdigit⟩ := hn.whole.head?
    rw [Numeral.text]
    split
    · exact ⟨_, _, rfl, .inl rfl⟩
    · rw [Numeral.unsignedText, hd]
      exact ⟨_, _, rfl, .inr hdigit⟩
  rw [htext] at hk hread ⊢
  obtain ⟨m, rfl, -⟩ := exists_fuel hk
  rw [List.map_cons, List.cons_append] at hread ⊢
  rw [readValue?_numeral hc, hread]
  rfl

theorem spells_integer (n : Int) : Spells (Integer.text n) (.num (Numeral.ofInt n)) := by
  rw [← Numeral.text_ofInt]
  exact spells_numeral (Numeral.wellFormed_ofInt n)

theorem spells_string (cs : List Char) : Spells (stringText cs) (.str (cs.map some)) := by
  intro n rest hn _
  obtain ⟨m, rfl, -⟩ := exists_fuel hn
  have hread := readString?_quoted cs rest
  simp [stringText, readValue?, skipSpace, isSpace, hread]

/-! ### Arrays and objects -/

variable {texts : List (List Char)} {ts : List Tree}

/-- The items of an array are read one after the other, each with less fuel than the one before. -/
theorem readItems?_join {text : List Char} {t : Tree} (h : Spells text t)
    (hs : List.Forall₂ Spells texts ts) (n : Nat) (rest : Input)
    (hn : ([','].intercalate (text :: texts)).length < n) :
    readItems? n (([','].intercalate (text :: texts)).map some ++ some ']' :: rest) =
      some (t :: ts, rest) := by
  induction hs generalizing text t n with
  | nil =>
    rw [List.intercalate_singleton] at hn ⊢
    obtain ⟨m, rfl, hm⟩ := exists_fuel hn
    rw [readItems?, h m _ hm (endsValue_bracket rest)]
    rfl
  | @cons text' t' texts ts h' _ ih =>
    rw [List.intercalate_cons_cons] at hn ⊢
    obtain ⟨m, rfl, hm⟩ := exists_fuel hn
    simp only [List.length_append, List.length_singleton] at hm
    have hrest := ih h' m (by omega)
    have htext :
        (text ++ [','] ++ [','].intercalate (text' :: texts)).map some ++ some ']' :: rest =
          text.map some ++
            some ',' :: (([','].intercalate (text' :: texts)).map some ++ some ']' :: rest) := by
      simp
    rw [htext, readItems?, h m _ (by omega) (endsValue_comma _)]
    simp [skipSpace, isSpace, hrest]

theorem spells_array (h : List.Forall₂ Spells texts ts) : Spells (arrayText texts) (.arr ts) := by
  intro n rest hn hrest
  obtain ⟨m, rfl, hm⟩ := exists_fuel hn
  cases h with
  | nil => rfl
  | @cons text t texts ts h hs =>
    have hfuel : ([','].intercalate (text :: texts)).length < m := by
      simpa using hm
    have hitems := readItems?_join h hs m rest hfuel
    -- The first item is a value, so the array does not end at once.
    have hopen : ∀ s, skipSpace (([','].intercalate (text :: texts)).map some ++ some ']' :: rest) ≠
        some ']' :: s := by
      intro s hs
      obtain ⟨k, rfl, -⟩ := exists_fuel hfuel
      rw [readItems?, readValue?_bracket k hs] at hitems
      cases hitems
    have htext : (arrayText (text :: texts)).map some ++ rest =
        some '[' :: (([','].intercalate (text :: texts)).map some ++ some ']' :: rest) := by
      simp [arrayText]
    rw [htext, readValue?]
    simp only [skipSpace, show isSpace '[' = false from rfl, Bool.false_eq_true, if_false,
      show ('[' : Char) ≠ '"' from by decide, if_true]
    rw [readItems?_skipSpace, hitems]
    rfl

/-- A written field that spells a member: the same key, and a value that spells the tree. -/
structure SpellsField (field : String × List Char) (member : String × Tree) : Prop where
  key : field.1 = member.1
  value : Spells field.2 member.2

/-- A member as the reader returns it. -/
def keyed (member : String × Tree) : List (Option Char) × Tree :=
  (member.1.toList.map some, member.2)

/-- The fields of a record between the braces. -/
def fieldsText (fields : List (String × List Char)) : List Char :=
  [','].intercalate (fields.map fun f => memberText f.1 f.2)

theorem fieldsText_cons_cons (f g : String × List Char) (fields : List (String × List Char)) :
    fieldsText (f :: g :: fields) = memberText f.1 f.2 ++ ',' :: fieldsText (g :: fields) := by
  simp [fieldsText, List.intercalate_cons_cons]

variable {fields : List (String × List Char)} {members : List (String × Tree)}

/-- A key and its colon come before the value. -/
theorem readMembers?_memberText {field : String × List Char} {member : String × Tree}
    (h : SpellsField field member) {n : Nat} (hn : (memberText field.1 field.2).length ≤ n)
    {rest : Input} (hrest : EndsValue rest) :
    readMembers? (n + 1) ((memberText field.1 field.2).map some ++ rest) =
      match skipSpace rest with
      | some '\x7d' :: s => some ([keyed member], s)
      | some ',' :: s => (readMembers? n s).map fun p => (keyed member :: p.1, p.2)
      | _ => none := by
  have htext : (memberText field.1 field.2).map some ++ rest =
      some '"' :: ((field.1.toList.flatMap escapedChar).map some ++
        some '"' :: some ':' :: (field.2.map some ++ rest)) := by
    simp [memberText, stringText]
  have hlen : field.2.length ≤ n := by
    simp only [memberText, stringText, List.length_append, List.length_cons] at hn
    omega
  rw [htext, readMembers?]
  simp only [skipSpace, show isSpace '"' = false from rfl, Bool.false_eq_true, if_false,
    readString?_quoted, show isSpace ':' = false from rfl, h.value n rest hlen hrest]
  simp only [keyed, h.key, -eq_self]
  rfl

/-- The members of an object are read one after the other, each with less fuel than the one
before. -/
theorem readMembers?_join {field : String × List Char} {member : String × Tree}
    (h : SpellsField field member) (hs : List.Forall₂ SpellsField fields members) (n : Nat)
    (rest : Input) (hn : (fieldsText (field :: fields)).length < n) :
    readMembers? n ((fieldsText (field :: fields)).map some ++ some '\x7d' :: rest) =
      some ((member :: members).map keyed, rest) := by
  induction hs generalizing field member n with
  | nil =>
    have htext : fieldsText [field] = memberText field.1 field.2 := by simp [fieldsText]
    rw [htext] at hn ⊢
    obtain ⟨m, rfl, hm⟩ := exists_fuel hn
    rw [readMembers?_memberText h hm (endsValue_brace rest)]
    rfl
  | @cons field' member' fields members h' _ ih =>
    rw [fieldsText_cons_cons] at hn ⊢
    obtain ⟨m, rfl, hm⟩ := exists_fuel hn
    simp only [List.length_append, List.length_cons] at hm
    have hrest := ih h' m (by omega)
    have htext : (memberText field.1 field.2 ++ ',' :: fieldsText (field' :: fields)).map some ++
          some '\x7d' :: rest =
        (memberText field.1 field.2).map some ++
          some ',' :: ((fieldsText (field' :: fields)).map some ++ some '\x7d' :: rest) := by
      simp
    rw [htext, readMembers?_memberText h (by omega) (endsValue_comma _)]
    simp [skipSpace, isSpace, hrest]

/-- What is written as a record is read as an object, whatever follows: the brace that ends it says
that there is no more of it. -/
theorem readValue?_record (h : List.Forall₂ SpellsField fields members) {n : Nat}
    (hn : (recordText fields).length ≤ n) (rest : Input) :
    readValue? n ((recordText fields).map some ++ rest) =
      some (.obj (members.map keyed), rest) := by
  obtain ⟨m, rfl, hm⟩ := exists_fuel hn
  cases h with
  | nil => rfl
  | @cons field member fields members h hs =>
    have hfuel : (fieldsText (field :: fields)).length < m := by
      simpa [fieldsText] using hm
    have hread := readMembers?_join h hs m rest hfuel
    -- The first key is a string, so the object does not end at once.
    have hopen : ∃ s, (fieldsText (field :: fields)).map some ++ some '\x7d' :: rest =
        some '"' :: s := by
      cases fields with
      | nil => exact ⟨_, by simp [fieldsText, memberText, stringText]; rfl⟩
      | cons g fields => exact ⟨_, by rw [fieldsText_cons_cons]; simp [memberText, stringText]; rfl⟩
    obtain ⟨s, hs⟩ := hopen
    have htext : (recordText (field :: fields)).map some ++ rest =
        some '\x7b' :: ((fieldsText (field :: fields)).map some ++ some '\x7d' :: rest) := by
      simp [recordText, objectText, fieldsText]
    rw [hs] at hread
    rw [htext, hs, readValue?]
    simp [skipSpace, isSpace, hread]

/-- A record spells an object. -/
theorem spells_record (h : List.Forall₂ SpellsField fields members) :
    Spells (recordText fields) (.obj (members.map keyed)) :=
  fun _ rest hn _ => readValue?_record h hn rest

/-! ### More than one value -/

/-- Where there is more than blanks, there is a token. -/
theorem skipSpace_ne_nil {c : Char} {s : Input} (hmem : some c ∈ s) (hc : isSpace c = false) :
    skipSpace s ≠ [] := by
  fun_induction skipSpace s with
  | case1 d rest hd ih =>
    rcases List.mem_cons.1 hmem with heq | hmem
    · obtain rfl := Option.some.inj heq
      rw [hc] at hd
      cases hd
    · exact ih hmem
  | case2 d rest hd => exact List.cons_ne_nil _ _
  | case3 s _ => exact List.ne_nil_of_mem hmem

/-- A record and then something more than blanks is not one value. -/
theorem ofChars?_record_append (h : List.Forall₂ SpellsField fields members) {more : List Char}
    {c : Char} (hmem : c ∈ more) (hc : isSpace c = false) :
    ofChars? (recordText fields ++ more) = none := by
  have hmore := skipSpace_ne_nil (List.mem_map_of_mem (f := some) hmem) hc
  rw [ofChars?, read?, List.map_append, readValue?_record h _ _]
  · exact if_neg hmore
  · simp only [List.length_append, List.length_map]
    omega

end Tree

end ChatRelay.Json
