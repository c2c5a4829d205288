import ChatRelay.Proofs.Text.Lossy

/-!
# Byte strings that are cut

What is lost when a byte string is cut in two and both parts are read by themselves is the one
character that the cut goes through, if it goes through one (`characters_append`). So a reader who
gets a byte string in pieces, and of the end of it nothing, gets all of its text but the characters
that the cuts go through and those at the end (`sublist_of_pieces`, `perm_of_pieces`, `mem_lost`).
Of U+FFFD itself nothing is said here, since it also stands for what could not be read.
-/

namespace ChatRelay.Utf8

/-! ### The bytes of one character -/

/-- A byte string starts with one character at most. -/
theorem eq_of_isPrefix {c d : Char} {bs : List UInt8} (hc : String.utf8EncodeChar c <+: bs)
    (hd : String.utf8EncodeChar d <+: bs) : c = d :=
  Option.some.inj ((first?_eq_some_iff.2 hc).symm.trans (first?_eq_some_iff.2 hd))

/-- The bytes of a character after its first one trail. -/
theorem trails_of_encode {c : Char} {b : UInt8} {bs : List UInt8}
    (h : String.utf8EncodeChar c = b :: bs) : ∀ x ∈ bs, Trails x := by
  obtain ⟨u, taken, rest, hbs, htaken, hread⟩ := exists_first_piece b bs
  have hunits : units (b :: bs) = [some c] := by
    have := units_utf8EncodeChar_append c []
    rwa [List.append_nil, h] at this
  have hrest : units rest = [] := (List.cons.inj (hread.symm.trans hunits)).2
  cases rest with
  | nil =>
    rw [hbs, List.append_nil]
    exact htaken
  | cons x rest =>
    obtain ⟨u', taken', rest', -, -, hread'⟩ := exists_first_piece x rest
    rw [hread'] at hrest
    cases hrest

theorem first?_append_of_some {xs : List UInt8} {c : Char} (h : first? xs = some c)
    (ys : List UInt8) : first? (xs ++ ys) = some c :=
  first?_eq_some_iff.2 ((first?_eq_some_iff.1 h).trans (List.prefix_append xs ys))

/-- A character begins with the first part of a byte string and ends in the second one. -/
def Spans (c : Char) (xs ys : List UInt8) : Prop :=
  ∃ bs, bs ≠ [] ∧ bs <+: ys ∧ String.utf8EncodeChar c = xs ++ bs

/-- A character spans two parts if it cannot be read from the first one alone. -/
theorem spans_iff {c : Char} {xs ys : List UInt8} :
    Spans c xs ys ↔ first? xs = none ∧ first? (xs ++ ys) = some c := by
  constructor
  · rintro ⟨bs, hbs, hys, hc⟩
    have hwhole : String.utf8EncodeChar c <+: xs ++ ys := by
      rw [hc]
      exact (List.prefix_append_right_inj xs).2 hys
    refine ⟨?_, first?_eq_some_iff.2 hwhole⟩
    rw [Option.eq_none_iff_forall_ne_some]
    intro d hd
    have hdxs := first?_eq_some_iff.1 hd
    obtain rfl := eq_of_isPrefix (hdxs.trans (List.prefix_append xs ys)) hwhole
    have hlen := hdxs.length_le
    have hpos := List.length_pos_iff.2 hbs
    rw [hc, List.length_append] at hlen
    omega
  · rintro ⟨hnone, hsome⟩
    have hwhole := first?_eq_some_iff.1 hsome
    obtain ⟨rest, hrest⟩ := hwhole
    rcases List.append_eq_append_iff.1 hrest with ⟨bs, hxs, -⟩ | ⟨bs, hc, hys⟩
    · have := first?_eq_some_iff.2 (hxs ▸ List.prefix_append (String.utf8EncodeChar c) bs)
      rw [hnone] at this
      cases this
    · refine ⟨bs, ?_, ⟨rest, hys.symm⟩, hc⟩
      rintro rfl
      have := first?_eq_some_iff.2 (show String.utf8EncodeChar c <+: xs by rw [hc, List.append_nil])
      rw [hnone] at this
      cases this

/-- The rest of what a character begins with trails. -/
theorem trails_of_spans {c : Char} {b : UInt8} {xs ys : List UInt8} (h : Spans c (b :: xs) ys) :
    ∀ x ∈ xs, Trails x := by
  obtain ⟨bs, -, -, hc⟩ := h
  intro x hx
  exact trails_of_encode hc x (List.mem_append_left bs hx)

theorem characters_of_trails {taken : List UInt8} (h : ∀ b ∈ taken, Trails b)
    (rest : List UInt8) : characters (taken ++ rest) = characters rest := by
  rw [characters_eq_filterMap_tails, characters_eq_filterMap_tails, filterMap_tails_of_trails h]

/-! ### One cut -/

/-- The characters, at most one, that begin in the first part of a byte string and end in the
second one. -/
def across : List UInt8 → List UInt8 → List Char
  | [], _ => []
  | b :: xs, ys =>
    match first? (b :: xs), first? (b :: xs ++ ys) with
    | none, some c => [c]
    | _, _ => across xs ys

theorem across_of_spans {c : Char} {b : UInt8} {xs ys : List UInt8} (h : Spans c (b :: xs) ys) :
    across (b :: xs) ys = [c] := by
  obtain ⟨hnone, hsome⟩ := spans_iff.1 h
  rw [across, hnone, hsome]

theorem across_of_not_spans {b : UInt8} {xs ys : List UInt8} (h : ∀ c, ¬ Spans c (b :: xs) ys) :
    across (b :: xs) ys = across xs ys := by
  rw [across]
  split
  · next c hnone hsome => exact absurd (spans_iff.2 ⟨hnone, hsome⟩) (h c)
  · rfl

/-- The characters of a byte string are those of its parts and the one that is cut. -/
theorem characters_append (xs ys : List UInt8) :
    characters (xs ++ ys) = characters xs ++ across xs ys ++ characters ys := by
  induction xs with
  | nil => rfl
  | cons b xs ih =>
    by_cases h : ∃ c, Spans c (b :: xs) ys
    · obtain ⟨c, hc⟩ := h
      obtain ⟨hnone, hsome⟩ := spans_iff.1 hc
      have htrails := trails_of_spans hc
      have hxs : characters xs = [] := by
        have := characters_of_trails htrails []
        rwa [List.append_nil] at this
      rw [across_of_spans hc, characters_cons, hnone, hxs, List.cons_append, characters_cons,
        ← List.cons_append, hsome, characters_of_trails htrails]
      rfl
    · rw [not_exists] at h
      have hfirst : first? (b :: xs ++ ys) = first? (b :: xs) := by
        cases hxs : first? (b :: xs) with
        | some c => exact first?_append_of_some hxs ys
        | none =>
          rw [Option.eq_none_iff_forall_ne_some]
          intro c hc
          exact h c (spans_iff.2 ⟨hxs, hc⟩)
      rw [across_of_not_spans h, characters_cons b xs, List.cons_append, characters_cons,
        ← List.cons_append, hfirst, ih]
      simp only [List.append_assoc]

/-- A character that is cut: its bytes begin with an end of the first part and end in the second. -/
def Straddles (c : Char) (xs ys : List UInt8) : Prop :=
  ∃ as, as ≠ [] ∧ as <:+ xs ∧ Spans c as ys

theorem mem_across {c : Char} {xs ys : List UInt8} : c ∈ across xs ys ↔ Straddles c xs ys := by
  induction xs with
  | nil =>
    constructor
    · intro h
      cases h
    · rintro ⟨as, has, hsuffix, -⟩
      exact absurd (List.suffix_nil.1 hsuffix) has
  | cons b xs ih =>
    by_cases h : ∃ d, Spans d (b :: xs) ys
    · obtain ⟨d, hd⟩ := h
      rw [across_of_spans hd, List.mem_singleton]
      constructor
      · rintro rfl
        exact ⟨b :: xs, by simp, List.suffix_rfl, hd⟩
      · rintro ⟨as, has, hsuffix, hspans⟩
        rcases List.suffix_cons_iff.1 hsuffix with rfl | hxs
        · exact Option.some.inj ((spans_iff.1 hspans).2.symm.trans (spans_iff.1 hd).2)
        · -- All that is left of the first part trails, and no character begins there.
          obtain ⟨a, as, rfl⟩ := List.exists_cons_of_ne_nil has
          have ha := trails_of_spans hd a (hxs.subset List.mem_cons_self)
          have := (spans_iff.1 hspans).2
          rw [List.cons_append, first?_of_trails ha] at this
          cases this
    · rw [not_exists] at h
      rw [across_of_not_spans h, ih]
      constructor
      · rintro ⟨as, has, hsuffix, hspans⟩
        exact ⟨as, has, hsuffix.trans (List.suffix_cons b xs), hspans⟩
      · rintro ⟨as, has, hsuffix, hspans⟩
        rcases List.suffix_cons_iff.1 hsuffix with rfl | hxs
        · exact absurd hspans (h c)
        · exact ⟨as, has, hxs, hspans⟩

/-- No character is cut where a text ends. -/
theorem across_of_text {xs : List UInt8} {cs : List Char} (h : decodeChars? xs = some cs)
    (ys : List UInt8) : across xs ys = [] := by
  have hwhole : characters (xs ++ ys) = characters xs ++ characters ys := by
    rw [characters, units_append h, ← decodeChars?_eq_some_iff.1 h, List.reduceOption_append]
    rfl
  rw [characters_append] at hwhole
  have hlen := congrArg List.length hwhole
  rw [List.length_append, List.length_append, List.length_append] at hlen
  exact List.length_eq_zero_iff.1 (by omega)

theorem Straddles.not_text {c : Char} {xs ys : List UInt8} (h : Straddles c xs ys) :
    decodeChars? xs = none := by
  rw [Option.eq_none_iff_forall_ne_some]
  intro cs hcs
  have hmem := mem_across.2 h
  rw [across_of_text hcs] at hmem
  cases hmem

/-! ### What can be read -/

/-- The characters of a text that stand for nothing but themselves. -/
def legible (cs : List Char) : List Char :=
  cs.filter (· ≠ '\uFFFD')

theorem legible_append (xs ys : List Char) : legible (xs ++ ys) = legible xs ++ legible ys :=
  List.filter_append xs ys

theorem mem_legible {c : Char} {cs : List Char} : c ∈ legible cs ↔ c ≠ '\uFFFD' ∧ c ∈ cs := by
  rw [legible, List.mem_filter, decide_eq_true_iff, and_comm]

/-- Reading lossily gives the characters of a byte string, and U+FFFD between them. -/
theorem legible_decodeLossy (bs : List UInt8) :
    legible (decodeLossy bs) = legible (characters bs) := by
  rw [decodeLossy, characters]
  induction units bs with
  | nil => rfl
  | cons u us ih =>
    cases u with
    | none => exact ih
    | some c =>
      rw [List.map_cons, List.reduceOption_cons_of_some]
      exact (legible_append [c] _).trans ((congrArg (legible [c] ++ ·) ih).trans
        (legible_append [c] _).symm)

/-- The characters of a byte string are those whose bytes stand in it. -/
theorem mem_characters {c : Char} {bs : List UInt8} :
    c ∈ characters bs ↔ String.utf8EncodeChar c <:+: bs := by
  rw [characters_eq_filterMap_tails, List.mem_filterMap]
  constructor
  · rintro ⟨ts, hts, hfirst⟩
    exact (first?_eq_some_iff.1 hfirst).isInfix.trans ((List.mem_tails _ _).1 hts).isInfix
  · intro h
    obtain ⟨before, after, rfl⟩ := h
    refine ⟨String.utf8EncodeChar c ++ after, ?_, first?_eq_some_iff.2 ⟨after, rfl⟩⟩
    rw [List.mem_tails, List.append_assoc]
    exact List.suffix_append _ _

/-! ### Many cuts -/

/-- What is lost of a byte string that is read piece by piece and whose end is not read. -/
def lost : List (List UInt8) → List UInt8 → List Char
  | [], rest => legible (decodeLossy rest)
  | piece :: pieces, rest =>
    legible (across piece (pieces.flatten ++ rest)) ++ lost pieces rest

section
variable (pieces : List (List UInt8)) (rest : List UInt8)

theorem legible_decodeLossy_cons (piece : List UInt8) :
    legible (decodeLossy ((piece :: pieces).flatten ++ rest)) =
      legible (decodeLossy piece) ++ legible (across piece (pieces.flatten ++ rest)) ++
        legible (decodeLossy (pieces.flatten ++ rest)) := by
  rw [List.flatten_cons, List.append_assoc, legible_decodeLossy, characters_append,
    legible_append, legible_append, legible_decodeLossy, legible_decodeLossy]

/-- What is read piece by piece is read of the whole, in the same order. -/
theorem sublist_of_pieces :
    (legible (pieces.flatMap decodeLossy)).Sublist
      (legible (decodeLossy (pieces.flatten ++ rest))) := by
  induction pieces with
  | nil => exact List.nil_sublist _
  | cons piece pieces ih =>
    rw [List.flatMap_cons, legible_append, legible_decodeLossy_cons]
    exact (List.sublist_append_left _ _).append ih

open List in
/-- What is read of the whole is what is read piece by piece and what is lost. -/
theorem perm_of_pieces :
    (legible (decodeLossy (pieces.flatten ++ rest))).Perm
      (legible (pieces.flatMap decodeLossy) ++ lost pieces rest) := by
  induction pieces with
  | nil => exact List.Perm.refl _
  | cons piece pieces ih =>
    rw [legible_decodeLossy_cons, List.flatMap_cons, legible_append, lost]
    set cut := legible (across piece (pieces.flatten ++ rest))
    set later := legible (pieces.flatMap decodeLossy)
    calc
      legible (decodeLossy piece) ++ cut ++ legible (decodeLossy (pieces.flatten ++ rest))
      _ ~ legible (decodeLossy piece) ++ cut ++ (later ++ lost pieces rest) :=
        ih.append_left _
      _ = legible (decodeLossy piece) ++ (cut ++ later ++ lost pieces rest) := by
        simp only [List.append_assoc]
      _ ~ legible (decodeLossy piece) ++ (later ++ cut ++ lost pieces rest) :=
        (List.perm_append_comm.append_right _).append_left _
      _ = legible (decodeLossy piece) ++ later ++ (cut ++ lost pieces rest) := by
        simp only [List.append_assoc]

/-- Reading piece by piece is as good as reading the whole if nothing is lost. -/
theorem eq_iff_lost_eq_nil :
    legible (pieces.flatMap decodeLossy) = legible (decodeLossy (pieces.flatten ++ rest)) ↔
      lost pieces rest = [] := by
  have hlength := (perm_of_pieces pieces rest).length_eq
  rw [List.length_append] at hlength
  constructor
  · intro heq
    rw [heq] at hlength
    exact List.length_eq_zero_iff.1 (by omega)
  · intro hnil
    rw [hnil, List.length_nil, Nat.add_zero] at hlength
    exact (sublist_of_pieces pieces rest).eq_of_length hlength.symm

/-- What is lost are the characters at the end and those that a cut goes through. -/
theorem mem_lost {c : Char} :
    c ∈ lost pieces rest ↔ c ≠ '\uFFFD' ∧ (String.utf8EncodeChar c <:+: rest ∨
      ∃ before piece after, pieces = before ++ piece :: after ∧
        Straddles c piece (after.flatten ++ rest)) := by
  induction pieces with
  | nil => simp [lost, legible_decodeLossy, mem_legible, mem_characters]
  | cons piece pieces ih =>
    rw [lost, List.mem_append, mem_legible, mem_across, ih]
    constructor
    · rintro (⟨hc, hcut⟩ | ⟨hc, hend | ⟨before, other, after, rfl, hcut⟩⟩)
      · exact ⟨hc, .inr ⟨[], piece, pieces, rfl, hcut⟩⟩
      · exact ⟨hc, .inl hend⟩
      · exact ⟨hc, .inr ⟨piece :: before, other, after, rfl, hcut⟩⟩
    · rintro ⟨hc, hend | ⟨before, other, after, hpieces, hcut⟩⟩
      · exact .inr ⟨hc, .inl hend⟩
      · cases before with
        | nil =>
          obtain ⟨rfl, rfl⟩ := List.cons.inj hpieces
          exact .inl ⟨hc, hcut⟩
        | cons first before =>
          obtain ⟨rfl, rfl⟩ := List.cons.inj hpieces
          exact .inr ⟨hc, .inr ⟨before, other, after, rfl, hcut⟩⟩

end

end ChatRelay.Utf8
