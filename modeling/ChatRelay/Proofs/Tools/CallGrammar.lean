import ChatRelay.Proofs.Tools.Expressions

/-!
# The grammar of call expressions

The grammar says which texts are call expressions and what each denotes, without a reader: a name,
a parenthesis, arguments separated by commas and perhaps one comma after them, a parenthesis, and
blanks between any two of these. A digit or a character of a string is part of a value, so no blank
is skipped there.

A reader takes a text off the front, which the grammar derives (`of_readArguments`), and it takes
off a derivable text with what it denotes if that text cannot go on (`readArguments_of`): after the
digits of an integer no digit may follow. Every value is followed by a blank, a comma or a
parenthesis, so this is no condition on a whole expression, and the texts that are read are just
those the grammar derives (`parse_iff_denotes`).
-/

namespace ChatRelay.CallExpr

/-! ### The grammar -/

namespace Rules

/-- Blanks, or nothing. -/
def Blanks (b : List Char) : Prop := ∀ c ∈ b, Text.isBlank c = true

/-- The quotes a string may stand in. -/
def Quote (q : Char) : Prop := q = '"' ∨ q = '\x27'

/-- What a backslash and a character denote. -/
inductive Escape : Char → List Char → Prop
  | newline : Escape 'n' ['\n']
  | tab : Escape 't' ['\t']
  | backslash : Escape '\\' ['\\']
  | double : Escape '"' ['"']
  | single : Escape '\x27' ['\x27']
  | other {c : Char} (hc : c ∉ ['n', 't', '\\', '"', '\x27']) : Escape c ['\\', c]

/-- What stands between two quotes, and the text it denotes. -/
inductive Inside (q : Char) : List Char → List Char → Prop
  | nil : Inside q [] []
  | plain {c : Char} {s text : List Char} (hquote : c ≠ q) (hslash : c ≠ '\\')
      (hs : Inside q s text) : Inside q (c :: s) (c :: text)
  | escape {c : Char} {d s text : List Char} (hc : Escape c d) (hs : Inside q s text) :
      Inside q ('\\' :: c :: s) (d ++ text)

/-- Digits, and the number they denote. -/
structure Digits (ds : List Char) (n : Nat) : Prop where
  ne_nil : ds ≠ []
  digit : ∀ d ∈ ds, d.isDigit = true
  value : n = Nat.ofDigitChars 10 ds 0

/-- A value: an integer of 64 bits with sign, or a string. -/
inductive Value : List Char → Literal → Prop
  | nat {ds : List Char} {n : Nat} (hds : Digits ds n) (hfits : (Literal.int n).Fits) :
      Value ds (.int n)
  | minus {ds : List Char} {n : Nat} (hds : Digits ds n) (hfits : (Literal.int (-n)).Fits) :
      Value ('-' :: ds) (.int (-n))
  | string {q : Char} {s text : List Char} (hq : Quote q) (hs : Inside q s text) :
      Value (q :: (s ++ [q])) (.str (String.ofList text))

/-- An argument, with a name before it or not. -/
inductive Arg : List Char → Argument → Prop
  | positional {s : List Char} {value : Literal} (hs : Value s value) : Arg s ⟨none, value⟩
  | named {name : String} {b₁ b₂ s : List Char} {value : Literal} (hname : IsName name)
      (hb₁ : Blanks b₁) (hb₂ : Blanks b₂) (hs : Value s value) :
      Arg (name.toList ++ (b₁ ++ '=' :: (b₂ ++ s))) ⟨some name, value⟩

/-- One or more arguments with commas between them. -/
inductive Args : List Char → List Argument → Prop
  | one {s : List Char} {a : Argument} (hs : Arg s a) : Args s [a]
  | cons {s b₁ b₂ t : List Char} {a : Argument} {as : List Argument} (hs : Arg s a)
      (hb₁ : Blanks b₁) (hb₂ : Blanks b₂) (ht : Args t as) :
      Args (s ++ (b₁ ++ ',' :: (b₂ ++ t))) (a :: as)

/-- What stands between the parentheses: arguments, perhaps with a comma after the last one, or
nothing. -/
inductive ArgList : List Char → List Argument → Prop
  | none : ArgList [] []
  | some {s : List Char} {as : List Argument} (hs : Args s as) : ArgList s as
  | trailing {s b : List Char} {as : List Argument} (hs : Args s as) (hb : Blanks b) :
      ArgList (s ++ (b ++ [','])) as

/-- A call expression. -/
inductive Call : List Char → CallExpr → Prop
  | call {name : String} {b₀ b₁ b₂ b₃ b₄ s : List Char} {as : List Argument} (hb₀ : Blanks b₀)
      (hname : IsName name) (hb₁ : Blanks b₁) (hb₂ : Blanks b₂) (hs : ArgList s as)
      (hb₃ : Blanks b₃) (hb₄ : Blanks b₄) :
      Call (b₀ ++ (name.toList ++ (b₁ ++ '(' :: (b₂ ++ (s ++ (b₃ ++ ')' :: b₄)))))) ⟨name, as⟩

end Rules

open Rules

variable {s t rest : List Char}

/-! ### Blanks and names -/

/-- The blanks at the start, and what is left without them. -/
theorem exists_blanks (s : List Char) : ∃ b, Blanks b ∧ s = b ++ Text.trimStart s :=
  ⟨s.takeWhile Text.isBlank, fun _ hc => List.mem_takeWhile_imp hc,
    List.takeWhile_append_dropWhile.symm⟩

theorem Rules.Blanks.append {b b' : List Char} (h : Blanks b) (h' : Blanks b') :
    Blanks (b ++ b') :=
  fun c hc => (List.mem_append.1 hc).elim (h c) (h' c)

/-- Nothing but blanks is skipped. -/
theorem trimStart_blanks {b : List Char} (hb : Blanks b) : Text.trimStart b = [] :=
  List.dropWhile_eq_nil_iff.2 hb

/-- The blanks before a character that is none are skipped. -/
theorem trimStart_blanks_cons {b : List Char} (hb : Blanks b) {c : Char}
    (hc : Text.isBlank c = false) (s : List Char) : Text.trimStart (b ++ c :: s) = c :: s :=
  Text.trimStart_append hb (by simpa using hc)

theorem of_readName {name : String} (h : readName s = .ok (name, rest)) :
    IsName name ∧ s = name.toList ++ rest := by
  cases s with
  | nil => cases h
  | cons c s =>
    rw [readName] at h
    split at h
    · next hc =>
      obtain ⟨rfl, rfl⟩ := Prod.mk.inj (Except.ok.inj h)
      refine ⟨⟨c, s.takeWhile isNamePart, String.toList_ofList, hc, fun d hd =>
        List.mem_takeWhile_imp hd⟩, ?_⟩
      rw [String.toList_ofList, List.cons_append, List.takeWhile_append_dropWhile]
    · cases h

theorem of_readChar {want : Char} (h : readChar want s = .ok rest) : s = want :: rest := by
  cases s with
  | nil => cases h
  | cons c s =>
    rw [readChar] at h
    split at h
    · next hc =>
      cases h
      rw [hc]
    · cases h

theorem readChar_cons (want : Char) (s : List Char) : readChar want (want :: s) = .ok s :=
  if_pos rfl

/-! ### Strings -/

/-- A pair denotes what it is read as, and nothing else. -/
theorem escape_iff {c : Char} {d : List Char} : Escape c d ↔ d = unescape c := by
  constructor
  · rintro (_ | _ | _ | _ | _ | hc)
    · rfl
    · rfl
    · rfl
    · rfl
    · rfl
    · simp only [List.mem_cons, List.not_mem_nil, or_false, not_or] at hc
      obtain ⟨hn, ht, hslash, hdouble, hsingle⟩ := hc
      simp [unescape, hn, ht, hslash, hdouble, hsingle]
  · rintro rfl
    by_cases hc : c ∈ ['n', 't', '\\', '"', '\x27']
    · simp only [List.mem_cons, List.not_mem_nil, or_false] at hc
      rcases hc with rfl | rfl | rfl | rfl | rfl
      · exact .newline
      · exact .tab
      · exact .backslash
      · exact .double
      · exact .single
    · have hother := Escape.other hc
      simp only [List.mem_cons, List.not_mem_nil, or_false, not_or] at hc
      obtain ⟨hn, ht, hslash, hdouble, hsingle⟩ := hc
      simpa [unescape, hn, ht, hslash, hdouble, hsingle] using hother

/-- What is read as the inside of a string is one. -/
theorem of_readQuoted {q : Char} {text : List Char} (h : readQuoted q s = .ok (text, rest)) :
    ∃ t, s = t ++ q :: rest ∧ Inside q t text := by
  fun_induction readQuoted q s generalizing text with
  | case1 => cases h
  | case2 s =>
    obtain ⟨rfl, rfl⟩ := Prod.mk.inj (Except.ok.inj h)
    exact ⟨[], rfl, .nil⟩
  | case3 => cases h
  | case4 e s hquote ih =>
    obtain ⟨⟨text', rest'⟩, hread, heq⟩ := ok_of_map h
    obtain ⟨rfl, rfl⟩ := Prod.mk.inj heq
    obtain ⟨t, rfl, ht⟩ := ih hread
    exact ⟨'\\' :: e :: t, rfl, .escape (escape_iff.2 rfl) ht⟩
  | case5 c s hquote hslash ih =>
    obtain ⟨⟨text', rest'⟩, hread, heq⟩ := ok_of_map h
    obtain ⟨rfl, rfl⟩ := Prod.mk.inj heq
    obtain ⟨t, rfl, ht⟩ := ih hread
    exact ⟨c :: t, rfl, .plain hquote hslash ht⟩

/-- The inside of a string is read up to its closing quote. -/
theorem readQuoted_of {q : Char} (hq : Quote q) {text : List Char} (h : Inside q s text)
    (rest : List Char) : readQuoted q (s ++ q :: rest) = .ok (text, rest) := by
  have hslash : '\\' ≠ q := by
    rintro rfl
    exact hq.elim (by decide) (by decide)
  induction h with
  | nil =>
    rw [List.nil_append, readQuoted.eq_def]
    exact if_pos rfl
  | plain hquote hplain hs ih =>
    rw [List.cons_append, readQuoted.eq_def]
    simp only [hquote, hplain, if_false, ih]
    rfl
  | escape hc hs ih =>
    rw [List.cons_append, List.cons_append, readQuoted.eq_def]
    simp only [hslash, if_false, if_true, ih, escape_iff.1 hc]
    rfl

/-! ### Values -/

/-- The digits at the start. -/
theorem exists_digits (s : List Char) : ∃ ds rest, s = ds ++ rest ∧
    (∀ d ∈ ds, d.isDigit = true) ∧ ∀ c ∈ rest.head?, c.isDigit = false := by
  refine ⟨s.takeWhile Char.isDigit, s.dropWhile Char.isDigit,
    List.takeWhile_append_dropWhile.symm, fun d hd => List.mem_takeWhile_imp hd, ?_⟩
  intro c hc
  have hnot := List.head?_dropWhile_not Char.isDigit s
  rw [hc] at hnot
  simpa using hnot

/-- What is read as an integer is one. -/
theorem of_readInteger {n : Int} (h : readInteger s = .ok (n, rest)) :
    ∃ t, s = t ++ rest ∧ Value t (.int n) := by
  by_cases hminus : ∃ u, s = '-' :: u
  · obtain ⟨u, rfl⟩ := hminus
    obtain ⟨ds, more, rfl, hds, hstop⟩ := exists_digits u
    by_cases hne : ds = []
    · subst hne
      simp only [readInteger, (takeWhile_digits hds hstop).1] at h
      cases h
    · rw [← List.cons_append, readInteger_minus_of_isDigit hne hds hstop,
        Integer.parse_minus_of_isDigit (by decide) _ hne hds] at h
      split at h
      · next hlow =>
        obtain ⟨rfl, rfl⟩ := Prod.mk.inj (Except.ok.inj h)
        exact ⟨_, rfl, .minus ⟨hne, hds, rfl⟩ ⟨hlow, by omega⟩⟩
      · cases h
  · obtain ⟨ds, more, rfl, hds, hstop⟩ := exists_digits s
    by_cases hne : ds = []
    · subst hne
      rw [readInteger] at h
      · simp only [(takeWhile_digits hds hstop).1] at h
        cases h
      · exact fun u hu => hminus ⟨u, hu⟩
    · rw [readInteger_of_isDigit hne hds hstop,
        Integer.parse_of_isDigit _ (by decide) hne hds] at h
      split at h
      · next hhigh =>
        obtain ⟨rfl, rfl⟩ := Prod.mk.inj (Except.ok.inj h)
        exact ⟨_, rfl, .nat ⟨hne, hds, rfl⟩ ⟨by omega, hhigh⟩⟩
      · cases h

/-- What is read as a value is one. -/
theorem of_readLiteral {l : Literal} (h : readLiteral s = .ok (l, rest)) :
    ∃ t, s = t ++ rest ∧ Value t l := by
  cases s with
  | nil => cases h
  | cons c s =>
    rw [readLiteral] at h
    split_ifs at h with hquote hnumber
    · obtain ⟨⟨text, more⟩, hread, heq⟩ := ok_of_map h
      obtain ⟨rfl, rfl⟩ := Prod.mk.inj heq
      obtain ⟨t, rfl, ht⟩ := of_readQuoted hread
      exact ⟨c :: (t ++ [c]), by simp, .string hquote ht⟩
    · obtain ⟨⟨n, more⟩, hread, heq⟩ := ok_of_map h
      obtain ⟨rfl, rfl⟩ := Prod.mk.inj heq
      exact of_readInteger hread

/-- A value is read up to where it ends, if no digit follows. -/
theorem readLiteral_of {l : Literal} (h : Value s l) (hrest : ∀ c ∈ rest.head?, c.isDigit = false) :
    readLiteral (s ++ rest) = .ok (l, rest) := by
  cases h with
  | nat hds hfits =>
    obtain ⟨hne, hdigit, rfl⟩ := hds
    have hread := readInteger_of_isDigit hne hdigit hrest
    rw [Integer.parse_of_isDigit _ (by decide) hne hdigit, if_pos hfits.2] at hread
    obtain ⟨c, cs, rfl⟩ := List.exists_cons_of_ne_nil hne
    have hc : c.isDigit = true := hdigit c (List.mem_cons_self ..)
    have hquote : ¬ (c = '"' ∨ c = '\x27') := by
      rintro (rfl | rfl) <;> exact absurd hc (by decide)
    rw [List.cons_append] at hread ⊢
    rw [readLiteral, if_neg hquote, if_pos (.inr hc), hread]
    rfl
  | minus hds hfits =>
    obtain ⟨hne, hdigit, rfl⟩ := hds
    have hread := readInteger_minus_of_isDigit hne hdigit hrest
    rw [Integer.parse_minus_of_isDigit (by decide) _ hne hdigit, if_pos hfits.1] at hread
    rw [List.cons_append] at hread ⊢
    rw [readLiteral, if_neg (by decide), if_pos (.inl rfl), hread]
    rfl
  | string hq hs =>
    rw [List.cons_append, List.append_assoc, List.singleton_append, readLiteral,
      if_pos (show _ ∨ _ from hq), readQuoted_of hq hs]
    rfl

/-- No name starts with a digit. -/
theorem isNameStart_of_isDigit {c : Char} (h : c.isDigit = true) : isNameStart c = false := by
  have hunderscore : c ≠ '_' := by
    rintro rfl
    exact absurd h (by decide)
  simp only [Char.isDigit, Bool.and_eq_true, decide_eq_true_eq, UInt32.le_iff_toNat_le] at h
  have hle : c.toNat ≤ 57 := h.2
  simp only [isNameStart, Char.isAlpha, Char.isUpper, Char.isLower, Bool.or_eq_false_iff,
    ← Bool.decide_and, decide_eq_false_iff_not, beq_eq_false_iff_ne, UInt32.le_iff_toNat_le]
  show (¬(65 ≤ c.toNat ∧ c.toNat ≤ 90) ∧ ¬(97 ≤ c.toNat ∧ c.toNat ≤ 122)) ∧ _
  exact ⟨by omega, hunderscore⟩

/-- A value starts with a character that skips no blanks, starts no name and closes nothing. -/
theorem Rules.Value.exists_cons {l : Literal} (h : Value s l) : ∃ c cs, s = c :: cs ∧
    Text.isBlank c = false ∧ isNameStart c = false ∧ c ≠ ')' := by
  cases h with
  | nat hds hfits =>
    obtain ⟨c, cs, rfl⟩ := List.exists_cons_of_ne_nil hds.ne_nil
    have hc : c.isDigit = true := hds.digit c (List.mem_cons_self ..)
    have hblank := isBlank_of_isNamePart (c := c) (by simp [isNamePart, Char.isAlphanum, hc])
    refine ⟨c, cs, rfl, hblank, isNameStart_of_isDigit hc, ?_⟩
    rintro rfl
    exact absurd hc (by decide)
  | minus hds hfits => exact ⟨'-', _, rfl, by decide, by decide, by decide⟩
  | string hq hs =>
    rcases hq with rfl | rfl
    · exact ⟨_, _, rfl, by decide, by decide, by decide⟩
    · exact ⟨_, _, rfl, by decide, by decide, by decide⟩

/-! ### Arguments -/

/-- A blank or a character that is no part of a name ends what stands before it. -/
theorem isNamePart_head {b : List Char} (hb : Blanks b) {c : Char} (hc : isNamePart c = false)
    (s : List Char) : ∀ d ∈ (b ++ c :: s).head?, isNamePart d = false := by
  intro d hd
  cases b with
  | nil =>
    obtain rfl : c = d := by simpa using hd
    exact hc
  | cons e b =>
    obtain rfl : e = d := by simpa using hd
    have hblank := hb e (List.mem_cons_self ..)
    by_contra hpart
    rw [isBlank_of_isNamePart (by simpa using hpart)] at hblank
    cases hblank

theorem isDigit_of_isNamePart {c : Char} (h : isNamePart c = false) : c.isDigit = false := by
  simp only [isNamePart, Char.isAlphanum, Bool.or_eq_false_iff] at h
  exact h.1.2

/-- What is read as an argument is one. -/
theorem of_readArgument {a : Argument} (h : readArgument s = .ok (a, rest)) :
    ∃ t, s = t ++ rest ∧ Arg t a := by
  rw [readArgument] at h
  split at h
  · obtain ⟨⟨name, s₁⟩, hread, h⟩ := ok_of_bind h
    obtain ⟨s₂, hchar, h⟩ := ok_of_bind h
    obtain ⟨⟨value, s₃⟩, hvalue, h⟩ := ok_of_bind h
    obtain ⟨rfl, rfl⟩ := Prod.mk.inj (Except.ok.inj h)
    obtain ⟨hname, rfl⟩ := of_readName hread
    obtain ⟨b₁, hb₁, hs₁⟩ := exists_blanks s₁
    obtain ⟨b₂, hb₂, hs₂⟩ := exists_blanks s₂
    obtain ⟨t, ht, hvalue⟩ := of_readLiteral hvalue
    refine ⟨name.toList ++ (b₁ ++ '=' :: (b₂ ++ t)), ?_, .named hname hb₁ hb₂ hvalue⟩
    rw [hs₁, of_readChar hchar, hs₂, ht]
    simp
  · obtain ⟨⟨value, s₁⟩, hvalue, h⟩ := ok_of_bind h
    obtain ⟨rfl, rfl⟩ := Prod.mk.inj (Except.ok.inj h)
    obtain ⟨t, rfl, ht⟩ := of_readLiteral hvalue
    exact ⟨t, rfl, .positional ht⟩

/-- An argument is read up to where it ends, if no digit follows. -/
theorem readArgument_of {a : Argument} (h : Arg s a)
    (hrest : ∀ c ∈ rest.head?, c.isDigit = false) : readArgument (s ++ rest) = .ok (a, rest) := by
  cases h with
  | positional hs =>
    obtain ⟨c, cs, hcs, -, hstart, -⟩ := hs.exists_cons
    have hnone : ¬ ((s ++ rest).head?.any isNameStart) = true := by simp [hcs, hstart]
    rw [readArgument, if_neg hnone, readLiteral_of hs hrest]
    rfl
  | @named name b₁ b₂ t value hname hb₁ hb₂ ht =>
    obtain ⟨d, ds, hds, hblank, -⟩ := ht.exists_cons
    obtain ⟨c, cs, hcs, hc, -⟩ := id hname
    have hsome : ((name.toList ++ (b₁ ++ '=' :: (b₂ ++ t)) ++ rest).head?.any isNameStart)
        = true := by simp [hcs, hc]
    have hvalue : Text.trimStart (b₂ ++ (t ++ rest)) = t ++ rest :=
      Text.trimStart_append hb₂ (by simp [hds, hblank])
    have hread := readName_append hname (isNamePart_head hb₁ (c := '=') (by decide)
      (b₂ ++ (t ++ rest)))
    rw [readArgument, if_pos hsome]
    simp only [List.append_assoc, List.cons_append, hread, bind, Except.bind,
      trimStart_blanks_cons hb₁ (c := '=') (by decide), readChar_cons, hvalue,
      readLiteral_of ht hrest]

/-- An argument starts with a character that skips no blanks and closes nothing. -/
theorem Rules.Arg.exists_cons {a : Argument} (h : Arg s a) : ∃ c cs, s = c :: cs ∧
    Text.isBlank c = false ∧ c ≠ ')' := by
  cases h with
  | positional hs =>
    obtain ⟨c, cs, hcs, hblank, -, hclose⟩ := hs.exists_cons
    exact ⟨c, cs, hcs, hblank, hclose⟩
  | named hname hb₁ hb₂ hs =>
    obtain ⟨c, cs, hcs, hc, -⟩ := hname
    refine ⟨c, _, congrArg (· ++ _) hcs, isBlank_of_isNamePart (isNamePart_of_isNameStart hc), ?_⟩
    rintro rfl
    exact absurd hc (by decide)

/-- With an argument before them, arguments are arguments; if there were none, the comma is one after
the last argument. -/
theorem Rules.ArgList.exists_cons {b₁ b₂ : List Char} {a : Argument} {as : List Argument}
    (hs : Arg s a) (hb₁ : Blanks b₁) (hb₂ : Blanks b₂) (ht : ArgList t as) :
    ∃ u b, ArgList u (a :: as) ∧ Blanks b ∧ s ++ (b₁ ++ ',' :: (b₂ ++ t)) = u ++ b := by
  cases ht with
  | none => exact ⟨s ++ (b₁ ++ [',']), b₂, .trailing (.one hs) hb₁, hb₂, by simp⟩
  | some hargs =>
    exact ⟨_, [], .some (.cons hs hb₁ hb₂ hargs), by simp [Blanks], (List.append_nil _).symm⟩
  | trailing hargs hb =>
    exact ⟨_, [], .trailing (.cons hs hb₁ hb₂ hargs) hb, by simp [Blanks], by simp⟩

/-- What is read as arguments are arguments, with a parenthesis after them. -/
theorem of_readArguments {n : Nat} {as : List Argument}
    (h : readArguments n s = .ok (as, rest)) :
    ∃ b t b', Blanks b ∧ ArgList t as ∧ Blanks b' ∧ s = b ++ (t ++ (b' ++ ')' :: rest)) := by
  induction n generalizing s as with
  | zero => cases h
  | succ n ih =>
    obtain ⟨b, hb, hs⟩ := exists_blanks s
    rw [readArguments] at h
    split at h
    · next u hu =>
      obtain ⟨rfl, rfl⟩ := Prod.mk.inj (Except.ok.inj h)
      exact ⟨b, [], [], hb, .none, by simp [Blanks], by rw [hs, hu]; rfl⟩
    · obtain ⟨⟨a, s₁⟩, hread, h⟩ := ok_of_bind h
      obtain ⟨t, ht, harg⟩ := of_readArgument hread
      obtain ⟨b₁, hb₁, hs₁⟩ := exists_blanks s₁
      rw [ht] at hs
      dsimp only at h
      split at h
      · next u hu =>
        obtain ⟨⟨as', rest'⟩, hread, h⟩ := ok_of_bind h
        obtain ⟨rfl, rfl⟩ := Prod.mk.inj (Except.ok.inj h)
        obtain ⟨b₂, t', b₃, hb₂, hlist, hb₃, rfl⟩ := ih hread
        obtain ⟨v, b₄, hv, hb₄, heq⟩ := Rules.ArgList.exists_cons harg hb₁ hb₂ hlist
        refine ⟨b, v, b₄ ++ b₃, hb, hv, hb₄.append hb₃, ?_⟩
        rw [List.append_assoc, ← List.append_assoc v, ← heq, hs, hs₁, hu]
        simp
      · next u hu =>
        obtain ⟨rfl, rfl⟩ := Prod.mk.inj (Except.ok.inj h)
        refine ⟨b, t, b₁, hb, .some (.one harg), hb₁, ?_⟩
        rw [hs, hs₁, hu]
      · cases h
      · cases h

/-- What ends the arguments: a parenthesis, perhaps with a comma before it. -/
inductive Close : List Char → List Char → Prop
  | plain {b rest : List Char} (hb : Blanks b) : Close (b ++ ')' :: rest) rest
  | comma {b b' rest : List Char} (hb : Blanks b) (hb' : Blanks b') :
      Close (b ++ ',' :: (b' ++ ')' :: rest)) rest

section Reading

variable {b : List Char} {a : Argument}

/-- Where no argument is left, the parenthesis is read. -/
theorem readArguments_close (n : Nat) (hb : Blanks b) :
    readArguments (n + 1) (b ++ ')' :: rest) = .ok ([], rest) := by
  rw [readArguments, trimStart_blanks_cons hb (by decide)]
  rfl

/-- An argument is read if it ends where a blank or a punctuation mark follows, and what comes after
it decides how to go on. -/
theorem readArguments_arg (n : Nat) (hb : Blanks b) (hs : Arg s a)
    (hrest : ∀ c ∈ rest.head?, isNamePart c = false) :
    readArguments (n + 1) (b ++ (s ++ rest)) =
      match Text.trimStart rest with
      | ',' :: u => (readArguments n u).map fun p => (a :: p.1, p.2)
      | ')' :: u => .ok ([a], u)
      | c :: _ => .error (.badSeparator c)
      | [] => .error .openArguments := by
  obtain ⟨c, cs, hcs, hblank, hclose⟩ := hs.exists_cons
  have hstart : Text.trimStart (b ++ (s ++ rest)) = s ++ rest :=
    Text.trimStart_append hb (by simp [hcs, hblank])
  have hopen : ∀ u, s ++ rest ≠ ')' :: u := by
    intro u hu
    rw [hcs] at hu
    exact hclose (List.cons.inj hu).1
  have hread := readArgument_of hs fun c hc => isDigit_of_isNamePart (hrest c hc)
  rw [readArguments, hstart]
  simp only [hread, bind, Except.bind, -eq_self]
  generalize Text.trimStart rest = t
  cases t with
  | nil => rfl
  | cons c t =>
    by_cases hcomma : c = ','
    · subst hcomma
      cases readArguments n t <;> rfl
    · rfl

theorem readArguments_comma (n : Nat) (hb : Blanks b) (hs : Arg s a) {b₁ : List Char}
    (hb₁ : Blanks b₁) (u : List Char) :
    readArguments (n + 1) (b ++ (s ++ (b₁ ++ ',' :: u))) =
      (readArguments n u).map fun p => (a :: p.1, p.2) := by
  rw [readArguments_arg n hb hs (isNamePart_head hb₁ (by decide) u),
    trimStart_blanks_cons hb₁ (by decide)]
  rfl

/-- Arguments are read up to the parenthesis that closes them. -/
theorem readArguments_of {as : List Argument} (h : Args s as) (hb : Blanks b)
    (hclose : Close t rest) {n : Nat} (hn : as.length < n) :
    readArguments n (b ++ (s ++ t)) = .ok (as, rest) := by
  induction h generalizing b n with
  | one hs =>
    obtain ⟨n, rfl⟩ : ∃ m, n = m + 2 := ⟨n - 2, by simp at hn; omega⟩
    cases hclose with
    | plain hb₁ =>
      rw [readArguments_arg _ hb hs (isNamePart_head hb₁ (by decide) rest),
        trimStart_blanks_cons hb₁ (by decide)]
      rfl
    | comma hb₁ hb₂ =>
      rw [readArguments_comma _ hb hs hb₁, readArguments_close n hb₂]
      rfl
  | cons hs hb₁ hb₂ hargs ih =>
    obtain ⟨n, rfl⟩ : ∃ m, n = m + 1 := ⟨n - 1, by simp at hn; omega⟩
    rw [List.append_assoc, List.append_assoc, List.cons_append, List.append_assoc,
      readArguments_comma _ hb hs hb₁, ih hb₂ (by simpa using hn)]
    rfl

/-- There are no more arguments than characters. -/
theorem Rules.Args.length_le {as : List Argument} (h : Args s as) : as.length ≤ s.length := by
  have hpos : ∀ {t : List Char} {a : Argument}, Arg t a → 1 ≤ t.length := by
    intro t a ht
    obtain ⟨c, cs, rfl, -⟩ := ht.exists_cons
    simp
  induction h with
  | one hs => exact hpos hs
  | cons hs hb₁ hb₂ hargs ih =>
    have := hpos hs
    simp only [List.length_append, List.length_cons]
    omega

/-- What stands between the parentheses is read, whether a comma ends it or not. -/
theorem readArguments_argList {as : List Argument} (h : ArgList s as) (hb : Blanks b)
    {b' : List Char} (hb' : Blanks b') (rest : List Char) {n : Nat}
    (hn : as.length < n) :
    readArguments n (b ++ (s ++ (b' ++ ')' :: rest))) = .ok (as, rest) := by
  cases h with
  | none =>
    obtain ⟨n, rfl⟩ : ∃ m, n = m + 1 := ⟨n - 1, by simp at hn; omega⟩
    rw [List.nil_append, ← List.append_assoc, readArguments_close n (hb.append hb')]
  | some hargs => exact readArguments_of hargs hb (.plain hb') hn
  | trailing hargs hcomma =>
    have hclose : Close (_ ++ ',' :: (_ ++ ')' :: rest)) rest := .comma hcomma hb'
    simpa using readArguments_of hargs hb hclose hn

theorem Rules.ArgList.length_le {as : List Argument} (h : ArgList s as) :
    as.length ≤ s.length := by
  cases h with
  | none => exact Nat.le_refl _
  | some hargs => exact hargs.length_le
  | trailing hargs hb =>
    rw [List.length_append]
    exact Nat.le_add_right_of_le hargs.length_le

end Reading

/-! ### Expressions -/

/-- What is read as an expression is one. -/
theorem call_of_parse {e : CallExpr} (h : parse s = .ok e) : Call s e := by
  obtain ⟨⟨name, s₁⟩, hread, hafter⟩ := ok_of_bind h
  obtain ⟨s₂, hchar, hafter⟩ := ok_of_bind hafter
  obtain ⟨⟨as, s₃⟩, hargs, hend⟩ := ok_of_bind hafter
  obtain ⟨b₀, hb₀, hs⟩ := exists_blanks s
  obtain ⟨b₁, hb₁, hs₁⟩ := exists_blanks s₁
  obtain ⟨hname, hs'⟩ := of_readName hread
  obtain ⟨b₂, t, b₃, hb₂, hlist, hb₃, rfl⟩ := of_readArguments hargs
  dsimp only at hend
  split at hend
  · next hnil =>
    cases hend
    have hb₄ : Blanks s₃ := List.dropWhile_eq_nil_iff.1 hnil
    rw [hs, hs', hs₁, of_readChar hchar]
    exact .call hb₀ hname hb₁ hb₂ hlist hb₃ hb₄
  · cases hend

/-- An expression is read as what it denotes. -/
theorem parse_of_call {e : CallExpr} (h : Call s e) : parse s = .ok e := by
  obtain @⟨name, b₀, b₁, b₂, b₃, b₄, t, as, hb₀, hname, hb₁, hb₂, hlist, hb₃, hb₄⟩ := h
  have hstart : Text.trimStart (b₀ ++ (name.toList ++ (b₁ ++ '(' :: (b₂ ++ (t ++ (b₃ ++
      ')' :: b₄)))))) = name.toList ++ (b₁ ++ '(' :: (b₂ ++ (t ++ (b₃ ++ ')' :: b₄)))) := by
    obtain ⟨c, cs, hcs, hc, -⟩ := hname
    refine Text.trimStart_append hb₀ ?_
    simp [hcs, isBlank_of_isNamePart (isNamePart_of_isNameStart hc)]
  have hlength : as.length < (b₂ ++ (t ++ (b₃ ++ ')' :: b₄))).length + 1 := by
    have := hlist.length_le
    simp only [List.length_append, List.length_cons]
    omega
  rw [parse, hstart, readName_append hname (isNamePart_head hb₁ (by decide) _)]
  simp only [bind, Except.bind, trimStart_blanks_cons hb₁ (c := '(') (by decide), readChar_cons,
    readArguments_argList hlist hb₂ hb₃ b₄ hlength, trimStart_blanks hb₄]

/-- The texts that are read are those the grammar derives, each as what it denotes. So a text denotes
one expression at most, and every text that denotes none is refused. -/
theorem parse_iff_denotes (s : List Char) :
    (∀ e, parse s = .ok e ↔ Call s e) ∧
    (∀ e e', Call s e → Call s e' → e = e') ∧
    ((∃ fault, parse s = .error fault) ↔ ¬ ∃ e, Call s e) := by
  refine ⟨fun e => ⟨call_of_parse, parse_of_call⟩, fun e e' h h' => ?_, ?_, ?_⟩
  · exact Except.ok.inj ((parse_of_call h).symm.trans (parse_of_call h'))
  · rintro ⟨fault, hfault⟩ ⟨e, he⟩
    rw [parse_of_call he] at hfault
    cases hfault
  · intro hnone
    cases hparse : parse s with
    | error fault => exact ⟨fault, rfl⟩
    | ok e => exact absurd ⟨e, call_of_parse hparse⟩ hnone

-- Blanks around every token, a comma at the end, zeros before a number and a pair that is no escape.
example : parse " f ( a = -007 ,\t'\\d\\n', ) ".toList =
    .ok ⟨"f", [⟨some "a", .int (-7)⟩, ⟨none, .str "\\d\n"⟩]⟩ := by
  cbv

end ChatRelay.CallExpr
