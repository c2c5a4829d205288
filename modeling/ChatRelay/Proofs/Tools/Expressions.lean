import ChatRelay.Proofs.Text.Digits
import ChatRelay.Proofs.Text.Lines
import ChatRelay.Tools.ExpressionSyntax

/-!
# Written expressions are read back

A name, an equals sign and a value are written without blanks, and arguments with a comma and a
blank between them. Reading gives the same names and values again, with one exception: an integer
that does not fit 64 bits with sign is refused (`Literal.kept`). So an expression that is written
with any names and any values is read as itself or refused for its first integer that is too large
(`parse_exprText`), whatever characters its strings hold; and it stands in one line
(`newline_not_mem_exprText`). Calls to functions that are not built in are written in this way, so
they are read as well (`parse_write_unlisted`).
-/

namespace ChatRelay

/-! ### Results -/

section
variable {ε ε' α β : Type} {x : Except ε α}

theorem ok_of_bind {f : α → Except ε β} {b : β} (h : x >>= f = .ok b) :
    ∃ a, x = .ok a ∧ f a = .ok b := by
  cases x with
  | error e => cases h
  | ok a => exact ⟨a, rfl, h⟩

theorem ok_of_toOption {a : α} (h : x.toOption = some a) : x = .ok a := by
  cases x with
  | error e => cases h
  | ok b => exact congrArg Except.ok (Option.some.inj h)

theorem ok_of_map {f : α → β} {b : β} (h : x.map f = .ok b) : ∃ a, x = .ok a ∧ f a = b := by
  cases x with
  | error e => cases h
  | ok a => exact ⟨a, rfl, Except.ok.inj h⟩

theorem exists_ok_iff : (∃ a, x = .ok a) ↔ ∀ e, x ≠ .error e := by
  cases x with
  | error e => exact iff_of_false nofun fun h => h e rfl
  | ok a => exact iff_of_true ⟨a, rfl⟩ nofun

theorem ok_of_mapError {f : ε → ε'} {a : α} (h : x.mapError f = .ok a) : x = .ok a := by
  cases x with
  | error e => cases h
  | ok b => exact congrArg Except.ok (Except.ok.inj h)

end

/-! ### Names -/

namespace CallExpr

/-- A text that is a name. -/
def IsName (s : String) : Prop :=
  ∃ c cs, s.toList = c :: cs ∧ isNameStart c = true ∧ ∀ d ∈ cs, isNamePart d = true

instance (s : String) : Decidable (IsName s) :=
  decidable_of_iff
    ((s.toList.head?.any isNameStart && s.toList.tail.all isNamePart) = true) (by
      unfold IsName
      cases s.toList <;> simp)

theorem isNamePart_of_isNameStart {c : Char} (h : isNameStart c = true) : isNamePart c = true := by
  simp only [isNameStart, isNamePart, Char.isAlphanum, Bool.or_eq_true] at h ⊢
  exact h.imp_left .inl

/-- The characters of a name by their numbers. -/
theorem isNamePart_iff {c : Char} : isNamePart c = true ↔
    (48 ≤ c.toNat ∧ c.toNat ≤ 57) ∨ (65 ≤ c.toNat ∧ c.toNat ≤ 90) ∨ c.toNat = 95 ∨
      (97 ≤ c.toNat ∧ c.toNat ≤ 122) := by
  have hunderscore : c = '_' ↔ c.toNat = 95 := by
    constructor
    · rintro rfl
      rfl
    · intro h
      rw [← Char.ofNat_toNat c, h]
  simp only [isNamePart, Char.isAlphanum, Char.isAlpha, Char.isUpper, Char.isLower, Char.isDigit,
    Bool.or_eq_true, Bool.and_eq_true, decide_eq_true_eq, beq_iff_eq, hunderscore,
    UInt32.le_iff_toNat_le]
  show (((65 ≤ c.toNat ∧ c.toNat ≤ 90) ∨ 97 ≤ c.toNat ∧ c.toNat ≤ 122) ∨ 48 ≤ c.toNat ∧
    c.toNat ≤ 57) ∨ c.toNat = 95 ↔ _
  omega

/-- A character of a name is no blank. -/
theorem isBlank_of_isNamePart {c : Char} (h : isNamePart c = true) : Text.isBlank c = false := by
  rw [isNamePart_iff] at h
  simp only [Text.isBlank, Bool.or_eq_false_iff, Bool.and_eq_false_iff, decide_eq_false_iff_not,
    beq_eq_false_iff_ne]
  omega

theorem trimStart_name {s : String} (h : IsName s) (rest : List Char) :
    Text.trimStart (s.toList ++ rest) = s.toList ++ rest := by
  obtain ⟨c, cs, hcs, hc, -⟩ := h
  rw [hcs]
  exact Text.trimStart_cons (isBlank_of_isNamePart (isNamePart_of_isNameStart hc))

/-- A name is read up to the first character that is no part of it. -/
theorem readName_append {name : String} (h : IsName name) {rest : List Char}
    (hrest : ∀ c ∈ rest.head?, isNamePart c = false) :
    readName (name.toList ++ rest) = .ok (name, rest) := by
  obtain ⟨c, cs, hname, hc, hcs⟩ := h
  have htake : (cs ++ rest).takeWhile isNamePart = cs := by
    rw [List.takeWhile_append_of_pos hcs]
    cases rest with
    | nil => simp
    | cons d rest => simp [hrest d rfl]
  have hdrop : (cs ++ rest).dropWhile isNamePart = rest := by
    rw [List.dropWhile_append_of_pos hcs]
    cases rest with
    | nil => rfl
    | cons d rest => simp [hrest d rfl]
  rw [hname, List.cons_append, readName, if_pos hc, htake, hdrop, ← hname, String.ofList_toList]

end CallExpr

/-! ### Values -/

/-- The text of a literal. -/
def Literal.text : Literal → List Char
  | int n => Integer.text n
  | str s => ExpressionSyntax.quotedText s.toList

/-- The value that a literal denotes; null for an integer that is not kept exactly. -/
def Literal.value : Literal → Json
  | int n => (Json.ofInt? n).getD .null
  | str s => .str s

theorem Literal.value_int {n : Int} (h : Json.InRange n) : (int n).value = .num (.int n h) := by
  rw [value, Json.ofInt?, dif_pos h]
  rfl

/-- Whether a literal can be read back: an integer has to fit 64 bits with sign. -/
def Literal.Fits : Literal → Prop
  | int n => -0x8000000000000000 ≤ n ∧ n ≤ 0x7FFFFFFFFFFFFFFF
  | str _ => True

instance (l : Literal) : Decidable l.Fits := by
  cases l <;> unfold Literal.Fits <;> infer_instance

/-- What a written literal is read as. -/
def Literal.kept (l : Literal) : Except CallExpr.Fault Literal :=
  match l with
  | int n =>
    if (int n).Fits then .ok (int n)
    else .error (.badInteger (Integer.text n) (if n < 0 then .tooSmall else .tooLarge))
  | str s => .ok (str s)

theorem Literal.kept_of_fits {l : Literal} (h : l.Fits) : l.kept = .ok l := by
  cases l with
  | int n => exact if_pos h
  | str s => rfl

theorem Literal.kept_of_not_fits {l : Literal} (h : ¬ l.Fits) : ∃ fault, l.kept = .error fault := by
  cases l with
  | int n => exact ⟨_, if_neg h⟩
  | str s => exact absurd trivial h

namespace CallExpr

open ExpressionSyntax

/-- A written character is read as itself, whatever it is. -/
theorem readQuoted_escapedChar (c : Char) (s : List Char) :
    readQuoted '"' (escapedChar c ++ s) = (readQuoted '"' s).map fun p => (c :: p.1, p.2) := by
  by_cases hspecial : c ∈ ['"', '\\', '\n', '\t']
  · simp only [List.mem_cons, List.not_mem_nil, or_false] at hspecial
    rcases hspecial with rfl | rfl | rfl | rfl <;> rfl
  · simp only [List.mem_cons, List.not_mem_nil, or_false, not_or] at hspecial
    obtain ⟨hquote, hslash, hn, ht⟩ := hspecial
    have hescaped : escapedChar c = [c] := by simp [escapedChar, hquote, hslash, hn, ht]
    rw [hescaped, List.singleton_append, readQuoted.eq_def]
    simp only [hquote, hslash, if_false]

theorem readQuoted_quoted (cs rest : List Char) :
    readQuoted '"' (cs.flatMap escapedChar ++ '"' :: rest) = .ok (cs, rest) := by
  induction cs with
  | nil =>
    rw [List.flatMap_nil, List.nil_append, readQuoted.eq_def]
    exact if_pos rfl
  | cons c cs ih =>
    rw [List.flatMap_cons, List.append_assoc, readQuoted_escapedChar, ih]
    rfl

section Digits

variable {ds rest : List Char}

/-- Digits end where no digit follows. -/
theorem takeWhile_digits (hds : ∀ d ∈ ds, d.isDigit = true)
    (hrest : ∀ c ∈ rest.head?, c.isDigit = false) :
    (ds ++ rest).takeWhile Char.isDigit = ds ∧ (ds ++ rest).dropWhile Char.isDigit = rest := by
  rw [List.takeWhile_append_of_pos hds, List.dropWhile_append_of_pos hds]
  cases rest with
  | nil => simp
  | cons d rest => simp [hrest d rfl]

/-- Digits are cut off where they end, and read within the bounds. -/
theorem readInteger_of_isDigit (hne : ds ≠ []) (hds : ∀ d ∈ ds, d.isDigit = true)
    (hrest : ∀ c ∈ rest.head?, c.isDigit = false) :
    readInteger (ds ++ rest) =
      ((Integer.parse (-0x8000000000000000) 0x7FFFFFFFFFFFFFFF ds).map (·, rest)).mapError
        (.badInteger ds) := by
  obtain ⟨htake, hdrop⟩ := takeWhile_digits hds hrest
  obtain ⟨c, cs, rfl⟩ := List.exists_cons_of_ne_nil hne
  have hminus : ∀ s, c :: cs ++ rest ≠ '-' :: s := by
    intro s hs
    obtain rfl : c = '-' := (List.cons.inj hs).1
    exact absurd (hds '-' (List.mem_cons_self ..)) (by decide)
  rw [readInteger]
  · simp only [htake, hdrop, List.nil_append]
    cases Integer.parse (-0x8000000000000000) 0x7FFFFFFFFFFFFFFF (c :: cs) <;> rfl
  · exact hminus

/-- Digits after a minus are cut off where they end, and read with it within the bounds. -/
theorem readInteger_minus_of_isDigit (hne : ds ≠ []) (hds : ∀ d ∈ ds, d.isDigit = true)
    (hrest : ∀ c ∈ rest.head?, c.isDigit = false) :
    readInteger ('-' :: ds ++ rest) =
      ((Integer.parse (-0x8000000000000000) 0x7FFFFFFFFFFFFFFF ('-' :: ds)).map
        (·, rest)).mapError (.badInteger ('-' :: ds)) := by
  obtain ⟨htake, hdrop⟩ := takeWhile_digits hds hrest
  obtain ⟨c, cs, rfl⟩ := List.exists_cons_of_ne_nil hne
  rw [List.cons_append, readInteger]
  simp only [htake, hdrop, List.singleton_append]
  cases Integer.parse (-0x8000000000000000) 0x7FFFFFFFFFFFFFFF ('-' :: c :: cs) <;> rfl

end Digits

/-- A written integer is cut off where it ends, and read within its bounds. -/
theorem readInteger_eq (n : Int) {rest : List Char}
    (hrest : ∀ c ∈ rest.head?, c.isDigit = false) :
    readInteger (Integer.text n ++ rest) =
      ((Integer.parse (-0x8000000000000000) 0x7FFFFFFFFFFFFFFF (Integer.text n)).map
        (·, rest)).mapError (.badInteger (Integer.text n)) := by
  have hne := Integer.digits_ne_nil n.natAbs
  have hds : ∀ d ∈ Integer.digits n.natAbs, d.isDigit = true := fun _ => Integer.digits_isDigit
  rw [Integer.text]
  split
  · exact readInteger_minus_of_isDigit hne hds hrest
  · exact readInteger_of_isDigit hne hds hrest

/-- A written integer is read if it fits. -/
theorem readInteger_text (n : Int) {rest : List Char}
    (hrest : ∀ c ∈ rest.head?, c.isDigit = false) :
    (readInteger (Integer.text n ++ rest)).map (fun p => (Literal.int p.1, p.2)) =
      (Literal.int n).kept.map (·, rest) := by
  rw [readInteger_eq n hrest, Integer.parse_text (by decide) (by decide), Literal.kept]
  by_cases hfits : -0x8000000000000000 ≤ n ∧ n ≤ 0x7FFFFFFFFFFFFFFF
  · rw [if_pos hfits, if_pos (show (Literal.int n).Fits from hfits)]
    rfl
  · rw [if_neg hfits, if_neg (show ¬ (Literal.int n).Fits from hfits)]
    rfl

/-- A string in quotes is read as that string, and its closing quote ends it. -/
theorem readLiteral_quotedText (s : String) (rest : List Char) :
    readLiteral (quotedText s.toList ++ rest) = .ok (.str s, rest) := by
  rw [quotedText, List.cons_append, List.cons_append, List.append_assoc, List.singleton_append,
    readLiteral, if_pos (.inl rfl), readQuoted_quoted]
  simp only [Except.map, String.ofList_toList]

/-- A written value is read as what is kept of it. -/
theorem readLiteral_text (l : Literal) {rest : List Char}
    (hrest : ∀ c ∈ rest.head?, c.isDigit = false) :
    readLiteral (l.text ++ rest) = l.kept.map (·, rest) := by
  cases l with
  | str s => exact readLiteral_quotedText s rest
  | int n =>
    have hread := readInteger_text n hrest
    obtain ⟨c, cs, htext, hc⟩ := Integer.exists_text_eq_cons n
    have hquote : ¬ (c = '"' ∨ c = '\x27') := by
      rintro (rfl | rfl) <;> exact absurd hc (by decide)
    rw [htext, List.cons_append] at hread
    rw [Literal.text, htext, List.cons_append, readLiteral, if_neg hquote, if_pos hc, hread]

/-- A written value does not start with a blank. -/
theorem trimStart_text (l : Literal) (rest : List Char) :
    Text.trimStart (l.text ++ rest) = l.text ++ rest := by
  cases l with
  | str s => exact Text.trimStart_cons (by decide)
  | int n =>
    obtain ⟨c, cs, htext, hc⟩ := Integer.exists_text_eq_cons n
    have hblank : Text.isBlank c = false := by
      rcases hc with rfl | hc
      · decide
      · exact isBlank_of_isNamePart (by simp [isNamePart, Char.isAlphanum, hc])
    rw [Literal.text, htext]
    exact Text.trimStart_cons hblank

/-! ### Arguments -/

/-- An argument as it is written, with its name. -/
def namedText (a : String × Literal) : List Char :=
  a.1.toList ++ '=' :: a.2.text

/-- What a written argument is read as. -/
def namedArgument (a : String × Literal) : Except Fault Argument :=
  a.2.kept.map fun l => ⟨some a.1, l⟩

theorem readArgument_namedText {a : String × Literal} (hname : IsName a.1) {rest : List Char}
    (hrest : ∀ c ∈ rest.head?, c.isDigit = false) :
    readArgument (namedText a ++ rest) = (namedArgument a).map (·, rest) := by
  have hequals : ∀ c ∈ ('=' :: (a.2.text ++ rest)).head?, isNamePart c = false := by
    simp only [List.head?_cons, Option.mem_some_iff]
    rintro _ rfl
    decide
  obtain ⟨c, cs, hcs, hc, -⟩ := id hname
  have hstart : ((namedText a ++ rest).head?.any isNameStart) = true := by
    rw [namedText, hcs]
    exact hc
  have hchar : Text.trimStart ('=' :: (a.2.text ++ rest)) = '=' :: (a.2.text ++ rest) :=
    Text.trimStart_cons (by decide)
  rw [readArgument, if_pos hstart, namedText, List.append_assoc, List.cons_append,
    readName_append hname hequals, namedArgument]
  simp only [bind, Except.bind, hchar, readChar, if_true, trimStart_text,
    readLiteral_text a.2 hrest]
  cases a.2.kept <;> rfl

/-- A blank before the arguments changes nothing. -/
theorem readArguments_blank (n : Nat) (s : List Char) :
    readArguments n (' ' :: s) = readArguments n s := by
  cases n with
  | zero => rfl
  | succ n => rfl

/-- The arguments after the first one are read after a comma, and none after a parenthesis. -/
theorem readArguments_cons {a : String × Literal} (hname : IsName a.1) (n : Nat)
    {s : List Char} (hs : ∀ c ∈ s.head?, c.isDigit = false) :
    readArguments (n + 1) (namedText a ++ s) = (namedArgument a).bind fun argument =>
      match Text.trimStart s with
      | ',' :: s => (readArguments n s).map fun p => (argument :: p.1, p.2)
      | ')' :: s => .ok ([argument], s)
      | c :: _ => .error (.badSeparator c)
      | [] => .error .openArguments := by
  have hstart : Text.trimStart (namedText a ++ s) = namedText a ++ s := by
    rw [namedText, List.append_assoc]
    exact trimStart_name hname _
  -- An argument starts with its name, so what is read is not the closing parenthesis.
  have hopen : ∀ t, namedText a ++ s ≠ ')' :: t := by
    obtain ⟨c, cs, hcs, hc, -⟩ := id hname
    intro t h
    rw [namedText, hcs] at h
    obtain rfl : c = ')' := (List.cons.inj h).1
    exact absurd hc (by decide)
  rw [readArguments, hstart]
  simp only [readArgument_namedText hname hs]
  cases namedArgument a with
  | error e => rfl
  | ok argument =>
    -- Kept as an equation, in which both sides branch on the same text.
    simp only [Except.map, bind, Except.bind, -eq_self]
    generalize Text.trimStart s = t
    cases t with
    | nil => rfl
    | cons c t =>
      by_cases hcomma : c = ','
      · subst hcomma
        cases readArguments n t <;> rfl
      · rfl

/-- Written arguments are read as what is kept of them, up to the first that is refused. -/
theorem readArguments_namedText {as : List (String × Literal)} (hnames : ∀ a ∈ as, IsName a.1)
    {n : Nat} (hn : as.length < n) (rest : List Char) :
    readArguments n ([',', ' '].intercalate (as.map namedText) ++ ')' :: rest) =
      (as.mapM namedArgument).map (·, rest) := by
  induction as generalizing n with
  | nil =>
    obtain ⟨n, rfl⟩ : ∃ m, n = m + 1 := ⟨n - 1, by simp at hn; omega⟩
    rfl
  | cons a as ih =>
    obtain ⟨n, rfl⟩ : ∃ m, n = m + 1 := ⟨n - 1, by simp at hn; omega⟩
    obtain ⟨hname, hrest⟩ := List.forall_mem_cons.1 hnames
    rw [List.length_cons] at hn
    rw [List.mapM_cons]
    cases as with
    | nil =>
      rw [List.map_singleton, List.intercalate_singleton, readArguments_cons hname n (by simp)]
      cases namedArgument a <;> rfl
    | cons b bs =>
      have hread := ih hrest (show (b :: bs).length < n by omega)
      rw [List.map_cons] at hread
      rw [List.map_cons, List.map_cons, List.intercalate_cons_cons, List.append_assoc,
        List.append_assoc, readArguments_cons hname n (by simp)]
      have hcomma : ∀ s, Text.trimStart ([',', ' '] ++ s) = ',' :: ' ' :: s := fun s => rfl
      simp only [hcomma, readArguments_blank, hread]
      cases namedArgument a with
      | error e => rfl
      | ok argument => cases (b :: bs).mapM namedArgument <;> rfl

/-- Arguments are kept if all their values fit. -/
theorem mapM_namedArgument {as : List (String × Literal)} (h : ∀ a ∈ as, a.2.Fits) :
    as.mapM namedArgument = .ok (as.map fun a => ⟨some a.1, a.2⟩) := by
  induction as with
  | nil => rfl
  | cons a as ih =>
    obtain ⟨ha, hrest⟩ := List.forall_mem_cons.1 h
    rw [List.mapM_cons, ih hrest, namedArgument, Literal.kept_of_fits ha]
    rfl

/-- Arguments are refused if one of their values does not fit. -/
theorem mapM_namedArgument_error {as : List (String × Literal)} (h : ∃ a ∈ as, ¬ a.2.Fits) :
    ∃ fault, as.mapM namedArgument = .error fault := by
  induction as with
  | nil => simp at h
  | cons a as ih =>
    rw [List.mapM_cons, namedArgument]
    by_cases ha : a.2.Fits
    · obtain ⟨fault, hfault⟩ := ih (by simpa [ha] using h)
      rw [Literal.kept_of_fits ha, hfault]
      exact ⟨fault, rfl⟩
    · obtain ⟨fault, hfault⟩ := Literal.kept_of_not_fits ha
      rw [hfault]
      exact ⟨fault, rfl⟩

/-! ### Expressions -/

/-- A call with named arguments as it is written. -/
def exprText (name : String) (as : List (String × Literal)) : List Char :=
  name.toList ++ '(' :: [',', ' '].intercalate (as.map namedText) ++ [')']

/-- There are no more arguments than characters. -/
theorem length_le_intercalate (as : List (String × Literal)) :
    as.length ≤ ([',', ' '].intercalate (as.map namedText)).length := by
  induction as with
  | nil => exact Nat.zero_le _
  | cons a as ih =>
    cases as with
    | nil =>
      simp only [List.map_singleton, List.intercalate_singleton, namedText, List.length_append,
        List.length_cons, List.length_nil]
      omega
    | cons b bs =>
      rw [List.map_cons] at ih
      rw [List.map_cons, List.map_cons, List.intercalate_cons_cons]
      simp only [List.length_cons, List.length_append] at ih ⊢
      omega

/-- A written call is read as what is kept of its arguments. -/
theorem parse_exprText {name : String} (hname : IsName name) {as : List (String × Literal)}
    (hnames : ∀ a ∈ as, IsName a.1) :
    parse (exprText name as) = (as.mapM namedArgument).map (⟨name, ·⟩) := by
  have hlength := length_le_intercalate as
  have hbound : as.length < ([',', ' '].intercalate (as.map namedText) ++ [')']).length + 1 := by
    rw [List.length_append]
    omega
  have hread := readArguments_namedText hnames hbound []
  have hopen : ∀ s, Text.trimStart ('(' :: s) = '(' :: s := fun s => rfl
  rw [parse, exprText, List.append_assoc, trimStart_name hname, List.cons_append,
    readName_append hname (by simp; decide)]
  simp only [bind, Except.bind, hopen, readChar, if_true, hread]
  cases as.mapM namedArgument <;> rfl

theorem newline_not_mem_name {s : String} (h : IsName s) : '\n' ∉ s.toList := by
  obtain ⟨c, cs, hcs, hc, hrest⟩ := h
  rw [hcs]
  intro hmem
  rcases List.mem_cons.1 hmem with rfl | hmem
  · exact absurd hc (by decide)
  · exact absurd (hrest _ hmem) (by decide)

theorem newline_not_mem_text (l : Literal) : '\n' ∉ l.text := by
  cases l with
  | int n =>
    rw [Literal.text, Integer.text]
    split <;> intro h
    · rcases List.mem_cons.1 h with h | h
      · cases h
      · exact absurd (Integer.digits_isDigit h) (by decide)
    · exact absurd (Integer.digits_isDigit h) (by decide)
  | str s =>
    have hescaped : ∀ c, '\n' ∉ escapedChar c := by
      intro c
      unfold escapedChar
      split_ifs <;> simp [*, eq_comm]
    simp [Literal.text, quotedText, hescaped]

/-- A written call stands in one line, whatever its strings hold. -/
theorem newline_not_mem_exprText {name : String} (hname : IsName name)
    {as : List (String × Literal)} (hnames : ∀ a ∈ as, IsName a.1) :
    '\n' ∉ exprText name as := by
  intro h
  rw [exprText, List.mem_append, List.mem_append, List.mem_cons] at h
  rcases h with ((h | h | h) | h)
  · exact newline_not_mem_name hname h
  · cases h
  · rcases Text.mem_of_mem_intercalate h with h | ⟨part, hpart, h⟩
    · revert h; decide
    · obtain ⟨a, ha, rfl⟩ := List.mem_map.1 hpart
      rw [namedText, List.mem_append, List.mem_cons] at h
      rcases h with h | h | h
      · exact newline_not_mem_name (hnames a ha) h
      · cases h
      · exact newline_not_mem_text _ h
  · revert h; decide

theorem tight_exprText {name : String} (hname : IsName name) (as : List (String × Literal)) :
    Text.Tight (exprText name as) where
  head := by
    obtain ⟨c, cs, hcs, hc, -⟩ := hname
    simp [exprText, hcs, isBlank_of_isNamePart (isNamePart_of_isNameStart hc)]
  last := by
    rw [exprText, List.getLast?_concat]
    rintro _ ⟨⟩
    decide

end CallExpr

/-! ### Calls to functions that are not built in -/

namespace ExpressionSyntax

open CallExpr

/-- The value of a literal is written as the literal is. -/
theorem valueText_value {l : Literal} (h : l.Fits) : valueText l.value = l.text := by
  cases l with
  | str s => rfl
  | int n =>
    rw [Literal.value_int ⟨h.1, Int.lt_of_le_of_lt h.2 (by decide)⟩]
    rfl

/-- Arguments that are strings and integers are the values of literals. -/
theorem exists_literals {arguments : List (String × Json)}
    (h : ∀ a ∈ arguments, ∃ l : Literal, l.Fits ∧ a.2 = l.value) :
    ∃ as : List (String × Literal),
      (∀ a ∈ as, a.2.Fits) ∧ arguments = as.map fun a => (a.1, a.2.value) := by
  induction arguments with
  | nil => exact ⟨[], nofun, rfl⟩
  | cons a arguments ih =>
    obtain ⟨⟨l, hfits, hl⟩, hrest⟩ := List.forall_mem_cons.1 h
    obtain ⟨as, has, rfl⟩ := ih hrest
    refine ⟨(a.1, l) :: as, List.forall_mem_cons.2 ⟨hfits, has⟩, ?_⟩
    rw [List.map_cons, ← hl]

/-- A call to a function that is not built in is written with all its arguments. -/
theorem write_of_unlisted {c : ToolCall} (hc : Catalog.lookup? c.name = none)
    {as : List (String × Literal)} (hfits : ∀ a ∈ as, a.2.Fits)
    (has : c.arguments = as.map fun a => (a.1, a.2.value)) : write c = exprText c.name as := by
  have htexts : (writtenArguments c).map (fun a => argumentText a.1 a.2) = as.map namedText := by
    rw [writtenArguments, hc, has, List.map_map, List.map_congr_left]
    intro a ha
    simp only [Function.comp_apply, argumentText, namedText, valueText_value (hfits a ha)]
  rw [write, exprText, htexts]

/-- A call to a function that is not built in, with names for its function and its arguments and with
strings and integers of 64 bits with sign for their values, is written in one line, and that line is
read as the call's name and its arguments, one by one in the order of their names. Quotes around a
string are taken off again by reading, whatever characters the string holds and whatever follows. -/
theorem parse_write_unlisted {c : ToolCall} (hname : IsName c.name)
    (hc : Catalog.lookup? c.name = none) (hkeys : Json.KeysAscend c.arguments)
    (hnames : ∀ a ∈ c.arguments, IsName a.1)
    (hvalues : ∀ a ∈ c.arguments, ∃ l : Literal, l.Fits ∧ a.2 = l.value) :
    '\n' ∉ write c ∧
    (∃ as, parse (write c) = .ok ⟨c.name, as⟩ ∧
      as.map (fun a => (a.name, a.value.value)) = c.arguments.map (fun a => (some a.1, a.2)) ∧
      (as.filterMap (·.name)).Pairwise (· < ·)) ∧
    ∀ (s : String) (rest : List Char),
      readLiteral (quotedText s.toList ++ rest) = .ok (.str s, rest) := by
  obtain ⟨as, hfits, has⟩ := exists_literals hvalues
  have hwrite := write_of_unlisted hc hfits has
  rw [has, List.forall_mem_map] at hnames
  refine ⟨?_, ⟨as.map fun a => ⟨some a.1, a.2⟩, ?_, ?_, ?_⟩, ?_⟩
  · rw [hwrite]
    exact newline_not_mem_exprText hname hnames
  · rw [hwrite, parse_exprText hname hnames, mapM_namedArgument hfits]
    rfl
  · rw [has, List.map_map, List.map_map]
    rfl
  · have hnamed : (as.map fun a => (⟨some a.1, a.2⟩ : Argument)).filterMap (·.name) =
        as.map (·.1) := by
      rw [List.filterMap_map]
      exact congrFun List.filterMap_eq_map as
    rw [Json.KeysAscend, has, List.map_map] at hkeys
    rw [hnamed]
    exact hkeys
  · exact readLiteral_quotedText

/-- A call to a function of the request, with an integer that is just not too small and a string of
everything that has to be kept apart: quotes, a backslash at the end, line ends, and a pair of
characters that is no line end. -/
def searchCall : ToolCall where
  name := "search"
  arguments := [("_since", .num (.int (-0x8000000000000000) (by decide))),
    ("query", .str "\"it\x27s\"\r\n\\n \u2028\\")]

theorem parse_write_unlisted_search :
    IsName searchCall.name ∧ Catalog.lookup? searchCall.name = none ∧
      Json.KeysAscend searchCall.arguments ∧ (∀ a ∈ searchCall.arguments, IsName a.1) ∧
      (∀ a ∈ searchCall.arguments, ∃ l : Literal, l.Fits ∧ a.2 = l.value) ∧
      '\n' ∉ write searchCall ∧
      ∃ as, parse (write searchCall) = .ok ⟨"search", as⟩ ∧
        as.map (fun a => (a.name, a.value.value)) =
          searchCall.arguments.map fun a => (some a.1, a.2) := by
  have hname : IsName searchCall.name := by decide +kernel
  have hc : Catalog.lookup? searchCall.name = none := by decide +kernel
  have hkeys : Json.KeysAscend searchCall.arguments := by
    have horder : ["_since", "query"].Pairwise (· < ·) := by decide
    exact horder
  have hnames : ∀ a ∈ searchCall.arguments, IsName a.1 := by decide +kernel
  have hvalues : ∀ a ∈ searchCall.arguments, ∃ l : Literal, l.Fits ∧ a.2 = l.value :=
    List.forall_mem_cons.2 ⟨⟨.int (-0x8000000000000000), by decide, rfl⟩,
      List.forall_mem_singleton.2 ⟨.str _, trivial, rfl⟩⟩
  obtain ⟨hline, ⟨as, hparse, has, -⟩, -⟩ := parse_write_unlisted hname hc hkeys hnames hvalues
  exact ⟨hname, hc, hkeys, hnames, hvalues, hline, as, hparse, has⟩

end ExpressionSyntax

end ChatRelay
