import ChatRelay.Proofs.Decimal.Shortest
import ChatRelay.Proofs.Json.RoundTrip
import ChatRelay.Proofs.Text.Lines

/-!
# Any value, written and read

What is written is JSON for every value, with floats and however deep: its text spells a tree
(`exists_spells`), although that tree may stand for no value any more, and it is in one line
(`newline_not_mem_write`). What is read is in order: the objects of a value have their keys in
ascending order, at every depth (`ordered_parse?`). And it is not nested deeper than there were
levels to read it with (`depth_json?`), while more levels change nothing (`json?_mono`): a value
without floats is read back from its text exactly if it is not nested too deep
(`parse?_write_eq_some_iff`).
-/

namespace ChatRelay

/-! ### Floats -/

namespace Decimal

/-- What the zeros at the end are taken from is what is left and these zeros. -/
theorem stripZeros_append (cs : List Char) :
    (stripZeros cs).1 ++ List.replicate (stripZeros cs).2 '0' = cs := by
  induction cs with
  | nil => rfl
  | cons c cs ih =>
    rw [stripZeros]
    split
    · next n heq =>
      rw [heq, List.nil_append] at ih
      split
      · next hc => rw [hc, List.nil_append, List.replicate_succ, ih]
      · rw [List.singleton_append, ih]
    · next ds n _ heq =>
      rw [heq] at ih
      rw [List.cons_append, ih]

end Decimal

namespace Json.Numeral

/-- The first digit of a number other than zero is no zero. -/
theorem digits_head_ne {n : Nat} (hn : n ≠ 0) {d : Char} {ds : List Char}
    (h : Integer.digits n = d :: ds) : d ≠ '0' := by
  cases ds with
  | cons e ds => exact Integer.digits_head_ne_zero n d e ds h
  | nil =>
    rintro rfl
    have hvalue := Integer.ofDigitChars_digits n
    rw [h] at hvalue
    exact hn hvalue.symm

/-- The digits without their zeros at the end are digits still, and the first of them no zero. -/
theorem isRun_stripZeros {n : Nat} (hn : n ≠ 0) :
    ∃ d es, (Decimal.stripZeros (Integer.digits n)).1 = d :: es ∧ IsRun (d :: es) ∧ d ≠ '0' := by
  have happend := Decimal.stripZeros_append (Integer.digits n)
  rcases hstrip : Decimal.stripZeros (Integer.digits n) with ⟨ds, k⟩
  rw [hstrip] at happend
  cases ds with
  | cons d es =>
    refine ⟨d, es, rfl, ⟨List.cons_ne_nil d es, ?_⟩, digits_head_ne hn happend.symm⟩
    intro e he
    refine Integer.digits_isDigit (n := n) ?_
    rw [← happend]
    exact List.mem_append_left _ he
  | nil =>
    -- Then the digits were zeros only, and the first of them is none.
    cases k with
    | zero => exact absurd happend.symm (Integer.digits_ne_nil n)
    | succ k => exact absurd rfl (digits_head_ne hn happend.symm)

theorem isRun_singleton {d : Char} (h : d.isDigit = true) : IsRun [d] :=
  ⟨List.cons_ne_nil d [], List.forall_mem_singleton.2 h⟩

theorem isRun_append_zeros {ds : List Char} (h : IsRun ds) (k : Nat) :
    IsRun (ds ++ List.replicate k '0') := by
  refine ⟨List.append_ne_nil_of_left_ne_nil h.ne_nil _, ?_⟩
  intro d hd
  rcases List.mem_append.1 hd with hd | hd
  · exact h.digits d hd
  · rw [List.eq_of_mem_replicate hd]
    rfl

theorem isRun_zeros_append {ds : List Char} (h : IsRun ds) (k : Nat) :
    IsRun (List.replicate k '0' ++ ds) := by
  refine ⟨List.append_ne_nil_of_right_ne_nil _ h.ne_nil, ?_⟩
  intro d hd
  rcases List.mem_append.1 hd with hd | hd
  · rw [List.eq_of_mem_replicate hd]
    rfl
  · exact h.digits d hd

/-- Digits with a point among them. -/
theorem wellFormed_fixed {ds fs : List Char} (hds : IsRun ds)
    (hleading : ∀ d e es, ds = d :: e :: es → d ≠ '0') (hfs : IsRun fs) :
    WellFormed ⟨false, ds, some fs, none⟩ where
  whole := hds
  leading := hleading
  fraction := by
    rintro _ ⟨⟩
    exact hfs
  exponent := by simp

theorem wellFormed_zero {fs : List Char} (hfs : IsRun fs) :
    WellFormed ⟨false, ['0'], some fs, none⟩ :=
  wellFormed_fixed (isRun_singleton rfl) (by simp) hfs

variable {d : Char} {es : List Char}

/-- Digits around or before the point. -/
theorem exists_positional (h : IsRun (d :: es)) (hd : d ≠ '0') {n : Nat} (hn : 0 < n) :
    ∃ m : Numeral, m.WellFormed ∧
      (if (d :: es).length ≤ n then
        d :: es ++ List.replicate (n - (d :: es).length) '0' ++ ['.', '0']
      else (d :: es).take n ++ '.' :: (d :: es).drop n) = m.unsignedText := by
  split
  · refine ⟨⟨false, d :: es ++ List.replicate (n - (d :: es).length) '0', some ['0'], none⟩, ?_, ?_⟩
    · refine wellFormed_fixed (isRun_append_zeros h _) ?_ (isRun_singleton rfl)
      intro f g fs heq
      rw [← (List.cons.inj heq).1]
      exact hd
    · simp [unsignedText, fractionText, exponentText]
  · next hlength =>
    obtain ⟨k, rfl⟩ := Nat.exists_eq_add_one.2 hn
    rw [List.length_cons] at hlength
    refine ⟨⟨false, d :: es.take k, some (es.drop k), none⟩, ?_, ?_⟩
    · refine wellFormed_fixed ⟨List.cons_ne_nil _ _, ?_⟩ ?_ ⟨?_, ?_⟩
      · intro e he
        exact h.digits e (List.mem_of_mem_take (i := k + 1) he)
      · intro f g fs heq
        rw [← (List.cons.inj heq).1]
        exact hd
      · rw [Ne, List.drop_eq_nil_iff]
        omega
      · intro e he
        exact h.digits e (List.mem_cons_of_mem d (List.mem_of_mem_drop he))
    · simp [unsignedText, fractionText, exponentText]

/-- One digit before the point, and an exponent. -/
theorem exists_scientific (h : IsRun (d :: es)) (e : Int) :
    ∃ m : Numeral, m.WellFormed ∧
      d :: (fractionText (if es = [] then none else some es) ++
        'e' :: (if e < 0 then '-' else '+') :: Integer.digits e.natAbs) = m.unsignedText := by
  refine ⟨⟨false, [d], if es = [] then none else some es,
    some (decide (e < 0), Integer.digits e.natAbs)⟩, ⟨?_, nofun, ?_, ?_⟩, ?_⟩
  · exact isRun_singleton (h.digits d (List.mem_cons_self ..))
  · intro ds hds
    split at hds
    · cases hds
    · next hne =>
      obtain rfl : es = ds := Option.some.inj hds
      exact ⟨hne, fun e he => h.digits e (List.mem_cons_of_mem d he)⟩
  · rintro _ ⟨⟩
    exact isRun_digits _
  · simp [unsignedText, exponentText]

/-- Digits are laid out as a numeral. -/
theorem exists_layout (s : Decimal.Style) (h : IsRun (d :: es)) (hd : d ≠ '0') (point : Int) :
    ∃ m : Numeral, m.WellFormed ∧ s.layout (d :: es) point = m.unsignedText := by
  rw [Decimal.Style.layout]
  split
  · split
    · refine ⟨⟨false, ['0'], some (List.replicate point.natAbs '0' ++ d :: es), none⟩, ?_, ?_⟩
      · exact wellFormed_zero (isRun_zeros_append h _)
      · simp [unsignedText, fractionText, exponentText]
    · exact exists_positional h hd (by omega)
  · obtain ⟨m, hm, htext⟩ := exists_scientific h (point - 1)
    refine ⟨m, hm, htext ▸ ?_⟩
    cases es with
    | nil => rfl
    | cons e es => rfl

/-- A sign makes a numeral of one that has none. -/
theorem exists_signed {body : List Char} (h : ∃ n : Numeral, n.WellFormed ∧ body = n.unsignedText)
    (negative : Bool) :
    ∃ n : Numeral, n.WellFormed ∧ (if negative then '-' :: body else body) = n.text := by
  obtain ⟨n, hn, rfl⟩ := h
  exact ⟨{ n with negative }, ⟨hn.whole, hn.leading, hn.fraction, hn.exponent⟩, rfl⟩

/-- A float is written as a numeral. -/
theorem exists_write (x : Binary64) : ∃ n : Numeral, n.WellFormed ∧ Decimal.write x = n.text := by
  refine exists_signed ?_ x.negative
  cases hzero : x.isZero with
  | true => exact ⟨⟨false, ['0'], some ['0'], none⟩, wellFormed_zero (isRun_singleton rfl), rfl⟩
  | false =>
    obtain ⟨d, es, hstrip, hrun, hd⟩ :=
      isRun_stripZeros (Binary64.digits_shortest_ne_zero hzero)
    rw [if_neg Bool.false_ne_true]
    dsimp only
    rw [hstrip]
    exact exists_layout Decimal.style hrun hd _

end Json.Numeral

namespace Json.Tree

theorem exists_spells_number (n : Number) : ∃ t, Spells n.text t := by
  cases n with
  | int n hrange => exact ⟨_, spells_integer n⟩
  | float x =>
    obtain ⟨n, hn, htext⟩ := Numeral.exists_write x
    refine ⟨.num n, ?_⟩
    rw [Number.text, htext]
    exact spells_numeral hn

mutual

/-- The text of any value spells a tree. -/
theorem exists_spells : (v : Json) → ∃ t, Spells (write v) t
  | .null => ⟨.null, spells_null⟩
  | .bool b => ⟨.bool b, spells_bool b⟩
  | .num n => exists_spells_number n
  | .str s => ⟨_, spells_string s.toList⟩
  | .arr items => by
    obtain ⟨ts, hspells⟩ := exists_spells_items items
    exact ⟨.arr ts, spells_array hspells⟩
  | .obj members => by
    obtain ⟨ts, hspells⟩ := exists_spells_members members
    rw [write_obj]
    exact ⟨_, spells_record hspells⟩

theorem exists_spells_items : (items : List Json) →
    ∃ ts, List.Forall₂ Spells (writeItems items) ts
  | [] => ⟨[], .nil⟩
  | v :: rest => by
    obtain ⟨t, hspells⟩ := exists_spells v
    obtain ⟨ts, hall⟩ := exists_spells_items rest
    exact ⟨t :: ts, .cons hspells hall⟩

theorem exists_spells_members : (members : List (String × Json)) →
    ∃ ts : List (String × Tree),
      List.Forall₂ SpellsField (members.map fun m => (m.1, write m.2)) ts
  | [] => ⟨[], .nil⟩
  | (k, v) :: rest => by
    obtain ⟨t, hspells⟩ := exists_spells v
    obtain ⟨ts, hall⟩ := exists_spells_members rest
    exact ⟨(k, t) :: ts, .cons ⟨rfl, hspells⟩ hall⟩

end

end Json.Tree

/-! ### Texts in one line -/

namespace Json

theorem newline_ne_digitChar : ∀ n < 16, '\n' ≠ Nat.digitChar n := by decide

/-- A line feed is escaped, and no escape is written with one. -/
theorem newline_not_mem_escapedChar (c : Char) : '\n' ∉ escapedChar c := by
  by_cases hshort : c ∈ ['"', '\\', '\x08', '\x0c', '\n', '\r', '\t']
  · -- A character with a short form.
    simp only [List.mem_cons, List.not_mem_nil, or_false] at hshort
    rcases hshort with rfl | rfl | rfl | rfl | rfl | rfl | rfl <;> decide
  · simp only [List.mem_cons, List.not_mem_nil, or_false, not_or] at hshort
    obtain ⟨hquote, hslash, hb, hf, hn, hr, ht⟩ := hshort
    by_cases hlow : c.toNat < 0x20
    · have hhigh := newline_ne_digitChar (c.toNat / 16) (by omega)
      have hdigit := newline_ne_digitChar (c.toNat % 16) (by omega)
      simp [escapedChar, hquote, hslash, hb, hf, hn, hr, ht, hlow, hhigh, hdigit]
    · simp [escapedChar, hquote, hslash, hb, hf, hn, hr, ht, hlow, Ne.symm hn]

theorem newline_not_mem_stringText (cs : List Char) : '\n' ∉ stringText cs := by
  intro hmem
  rcases List.mem_append.1 hmem with hopen | hclose
  · rcases List.mem_cons.1 hopen with hquote | hmem
    · exact absurd hquote (by decide)
    · obtain ⟨c, -, hc⟩ := List.mem_flatMap.1 hmem
      exact newline_not_mem_escapedChar c hc
  · exact absurd (List.mem_singleton.1 hclose) (by decide)

theorem newline_not_mem_boolText (b : Bool) : '\n' ∉ boolText b := by
  cases b <;> decide

/-- Parts with commas between them are in one line if each is. -/
theorem newline_not_mem_joined {parts : List (List Char)} (h : ∀ part ∈ parts, '\n' ∉ part) :
    '\n' ∉ [','].intercalate parts := by
  intro hmem
  rcases Text.mem_of_mem_intercalate hmem with hcomma | ⟨part, hpart, hmem⟩
  · exact absurd (List.mem_singleton.1 hcomma) (by decide)
  · exact h part hpart hmem

theorem newline_not_mem_arrayText {items : List (List Char)} (h : ∀ item ∈ items, '\n' ∉ item) :
    '\n' ∉ arrayText items := by
  simp [arrayText, newline_not_mem_joined h]

/-- A record is in one line if its fields are. -/
theorem newline_not_mem_recordText {fields : List (String × List Char)}
    (h : ∀ f ∈ fields, '\n' ∉ f.2) : '\n' ∉ recordText fields := by
  have hmembers : ∀ member ∈ fields.map fun f => memberText f.1 f.2, '\n' ∉ member := by
    rw [List.forall_mem_map]
    intro f hf
    simp [memberText, newline_not_mem_stringText, h f hf]
  simp [recordText, objectText, newline_not_mem_joined hmembers]

theorem Numeral.IsRun.newline_not_mem {ds : List Char} (h : IsRun ds) : '\n' ∉ ds := by
  intro hmem
  exact absurd (h.digits _ hmem) (by decide)

theorem Numeral.WellFormed.newline_not_mem {n : Numeral} (h : n.WellFormed) : '\n' ∉ n.text := by
  have hfraction : '\n' ∉ fractionText n.fraction := by
    cases hf : n.fraction with
    | none => exact List.not_mem_nil
    | some ds => simp [fractionText, (h.fraction ds hf).newline_not_mem]
  have hexponent : '\n' ∉ exponentText n.exponent := by
    cases hx : n.exponent with
    | none => exact List.not_mem_nil
    | some x =>
      have hdigits := (h.exponent x hx).newline_not_mem
      cases hsign : x.1 <;> simp [exponentText, hsign, hdigits]
  have hunsigned : '\n' ∉ n.unsignedText := by
    simp [unsignedText, h.whole.newline_not_mem, hfraction, hexponent]
  rw [text]
  split
  · simp [hunsigned]
  · exact hunsigned

theorem newline_not_mem_number (n : Number) : '\n' ∉ n.text := by
  cases n with
  | int n hrange =>
    rw [Number.text, ← Numeral.text_ofInt]
    exact (Numeral.wellFormed_ofInt n).newline_not_mem
  | float x =>
    obtain ⟨n, hn, htext⟩ := Numeral.exists_write x
    rw [Number.text, htext]
    exact hn.newline_not_mem

mutual

/-- The text of any value is in one line. -/
theorem newline_not_mem_write : (v : Json) → '\n' ∉ write v
  | .null => by decide
  | .bool b => newline_not_mem_boolText b
  | .num n => newline_not_mem_number n
  | .str s => newline_not_mem_stringText s.toList
  | .arr items => newline_not_mem_arrayText (newline_not_mem_items items)
  | .obj members => by
    rw [write_obj]
    exact newline_not_mem_recordText (List.forall_mem_map.2 (newline_not_mem_members members))

theorem newline_not_mem_items : (items : List Json) → ∀ item ∈ writeItems items, '\n' ∉ item
  | [] => nofun
  | v :: rest =>
    List.forall_mem_cons.2 ⟨newline_not_mem_write v, newline_not_mem_items rest⟩

theorem newline_not_mem_members : (members : List (String × Json)) →
    ∀ m ∈ members, '\n' ∉ write m.2
  | [] => nofun
  | (_, v) :: rest =>
    List.forall_mem_cons.2 ⟨newline_not_mem_write v, newline_not_mem_members rest⟩

end

/-- An object and then something more than blanks is no JSON. -/
theorem parse?_write_obj_append (members : List (String × Json)) {more : List Char} {c : Char}
    (hmem : c ∈ more) (hc : Tree.isSpace c = false) :
    parse? (write (.obj members) ++ more) = none := by
  obtain ⟨ts, hspells⟩ := Tree.exists_spells_members members
  rw [write_obj, parse?, Tree.ofChars?_record_append hspells hmem hc, Option.bind_none]

end Json

/-! ### What is read is in order -/

namespace Json

theorem orderedMembers_iff {members : List (String × Json)} :
    OrderedMembers members ↔ ∀ m ∈ members, Ordered m.2 := by
  induction members with
  | nil => simp [OrderedMembers]
  | cons m rest ih => rw [OrderedMembers, ih, List.forall_mem_cons]

/-- An object of values that are in order is in order. -/
theorem ordered_object {members : List (String × Json)} (h : OrderedMembers members) :
    (object members).Ordered := by
  refine ⟨keysAscend_ofMembers members, orderedMembers_iff.2 ?_⟩
  intro m hm
  exact orderedMembers_iff.1 h m (mem_of_mem_ofMembers hm)

namespace Tree

mutual

theorem ordered_json? : (t : Tree) → ∀ {depth v}, json? depth t = some v → v.Ordered
  | .null, _, _, h => by
    cases h
    trivial
  | .bool b, _, _, h => by
    cases h
    trivial
  | .num n, _, _, h => by
    obtain ⟨m, -, rfl⟩ := Option.map_eq_some_iff.1 h
    trivial
  | .str units, _, _, h => by
    obtain ⟨s, -, rfl⟩ := Option.map_eq_some_iff.1 h
    trivial
  | .arr items, depth, _, h => by
    rw [json?] at h
    split at h
    · cases h
    · obtain ⟨vs, hvs, rfl⟩ := Option.map_eq_some_iff.1 h
      exact ordered_jsonItems? items hvs
  | .obj members, depth, _, h => by
    rw [json?] at h
    split at h
    · cases h
    · obtain ⟨ms, hms, rfl⟩ := Option.map_eq_some_iff.1 h
      exact ordered_object (ordered_jsonMembers? members hms)

theorem ordered_jsonItems? :
    (ts : List Tree) → ∀ {depth vs}, jsonItems? depth ts = some vs → OrderedItems vs
  | [], _, _, h => by
    cases h
    trivial
  | t :: rest, depth, _, h => by
    rw [jsonItems?] at h
    split at h
    · cases h
    · next v hv =>
      obtain ⟨vs, hvs, rfl⟩ := Option.map_eq_some_iff.1 h
      exact ⟨ordered_json? t hv, ordered_jsonItems? rest hvs⟩

theorem ordered_jsonMembers? : (ts : List (List (Option Char) × Tree)) →
    ∀ {depth ms}, jsonMembers? depth ts = some ms → OrderedMembers ms
  | [], _, _, h => by
    cases h
    trivial
  | (key, t) :: rest, depth, _, h => by
    rw [jsonMembers?] at h
    split at h
    · next k v _ hv =>
      obtain ⟨ms, hms, rfl⟩ := Option.map_eq_some_iff.1 h
      exact ⟨ordered_json? t hv, ordered_jsonMembers? rest hms⟩
    · cases h

end

end Tree

theorem ordered_parse? {cs : List Char} {v : Json} (h : parse? cs = some v) : v.Ordered := by
  obtain ⟨t, -, ht⟩ := Option.bind_eq_some_iff.1 h
  exact Tree.ordered_json? t ht

/-! ### What is read is not nested deep -/

theorem depth_object_le {members : List (String × Json)} {n : Nat} (h : depthMembers members ≤ n) :
    (object members).depth ≤ n + 1 := by
  refine Nat.succ_le_succ (depthMembers_le_iff.2 ?_)
  intro m hm
  exact depthMembers_le_iff.1 h m (mem_of_mem_ofMembers hm)

namespace Tree

mutual

/-- A value has one level less than there were to read it with. -/
theorem depth_json? : (t : Tree) → ∀ {depth v}, json? depth t = some v → v.depth ≤ depth - 1
  | .null, _, _, h => by
    cases h
    exact Nat.zero_le _
  | .bool b, _, _, h => by
    cases h
    exact Nat.zero_le _
  | .num n, _, _, h => by
    obtain ⟨m, -, rfl⟩ := Option.map_eq_some_iff.1 h
    exact Nat.zero_le _
  | .str units, _, _, h => by
    obtain ⟨s, -, rfl⟩ := Option.map_eq_some_iff.1 h
    exact Nat.zero_le _
  | .arr items, depth, _, h => by
    rw [json?] at h
    split at h
    · cases h
    · obtain ⟨vs, hvs, rfl⟩ := Option.map_eq_some_iff.1 h
      have hitems := depth_jsonItems? items hvs
      rw [Json.depth]
      omega
  | .obj members, depth, _, h => by
    rw [json?] at h
    split at h
    · cases h
    · obtain ⟨ms, hms, rfl⟩ := Option.map_eq_some_iff.1 h
      have hmembers := depth_object_le (depth_jsonMembers? members hms)
      omega

theorem depth_jsonItems? : (ts : List Tree) → ∀ {depth vs}, jsonItems? depth ts = some vs →
    depthItems vs ≤ depth - 1
  | [], _, _, h => by
    cases h
    exact Nat.zero_le _
  | t :: rest, depth, _, h => by
    rw [jsonItems?] at h
    split at h
    · cases h
    · next v hv =>
      obtain ⟨vs, hvs, rfl⟩ := Option.map_eq_some_iff.1 h
      exact Nat.max_le.2 ⟨depth_json? t hv, depth_jsonItems? rest hvs⟩

theorem depth_jsonMembers? : (ts : List (List (Option Char) × Tree)) →
    ∀ {depth ms}, jsonMembers? depth ts = some ms → depthMembers ms ≤ depth - 1
  | [], _, _, h => by
    cases h
    exact Nat.zero_le _
  | (key, t) :: rest, depth, _, h => by
    rw [jsonMembers?] at h
    split at h
    · next k v _ hv =>
      obtain ⟨ms, hms, rfl⟩ := Option.map_eq_some_iff.1 h
      exact Nat.max_le.2 ⟨depth_json? t hv, depth_jsonMembers? rest hms⟩
    · cases h

end

/-! ### More levels -/

mutual

/-- With more levels a tree stands for the same value. -/
theorem json?_mono : (t : Tree) → ∀ {depth more v}, depth ≤ more →
    json? depth t = some v → json? more t = some v
  | .null, _, _, _, _, h => h
  | .bool _, _, _, _, _, h => h
  | .num _, _, _, _, _, h => h
  | .str _, _, _, _, _, h => h
  | .arr items, _, _, _, hle, h => by
    rw [json?] at h ⊢
    split at h
    · cases h
    · obtain ⟨vs, hvs, rfl⟩ := Option.map_eq_some_iff.1 h
      rw [if_neg (by omega), jsonItems?_mono items (Nat.sub_le_sub_right hle 1) hvs]
      rfl
  | .obj members, _, _, _, hle, h => by
    rw [json?] at h ⊢
    split at h
    · cases h
    · obtain ⟨ms, hms, rfl⟩ := Option.map_eq_some_iff.1 h
      rw [if_neg (by omega), jsonMembers?_mono members (Nat.sub_le_sub_right hle 1) hms]
      rfl

theorem jsonItems?_mono : (ts : List Tree) → ∀ {depth more vs}, depth ≤ more →
    jsonItems? depth ts = some vs → jsonItems? more ts = some vs
  | [], _, _, _, _, h => h
  | t :: rest, _, _, _, hle, h => by
    rw [jsonItems?] at h ⊢
    split at h
    · cases h
    · next v hv =>
      obtain ⟨vs, hvs, rfl⟩ := Option.map_eq_some_iff.1 h
      rw [json?_mono t hle hv, jsonItems?_mono rest hle hvs]
      rfl

theorem jsonMembers?_mono : (ts : List (List (Option Char) × Tree)) → ∀ {depth more ms},
    depth ≤ more → jsonMembers? depth ts = some ms → jsonMembers? more ts = some ms
  | [], _, _, _, _, h => h
  | (key, t) :: rest, _, _, _, hle, h => by
    rw [jsonMembers?] at h ⊢
    split at h
    · next k v hk hv =>
      obtain ⟨ms, hms, rfl⟩ := Option.map_eq_some_iff.1 h
      rw [hk, json?_mono t hle hv, jsonMembers?_mono rest hle hms]
      rfl
    · cases h

end

end Tree

/-- What is read from the text of a value without floats is the value, and the text is read exactly
if the value is not nested too deep. -/
theorem parse?_write_eq_some_iff {v w : Json} (hf : v.FloatFree) (ho : v.Ordered) :
    parse? (write v) = some w ↔ w = v ∧ v.depth < Tree.depthLimit := by
  constructor
  · intro h
    obtain ⟨t, hspells, hread⟩ := Tree.states_value v hf ho
    rw [parse?, hspells.ofChars?, Option.bind_some] at h
    -- With levels enough for both, the tree stands for the value that was read and for the other.
    have hw := Tree.json?_mono t (Nat.le_max_left Tree.depthLimit (v.depth + 1)) h
    have hv := hread (max Tree.depthLimit (v.depth + 1)) (Nat.le_max_right ..)
    obtain rfl : w = v := Option.some.inj (hw.symm.trans hv)
    have hdepth := Tree.depth_json? t h
    exact ⟨rfl, Nat.lt_of_le_of_lt hdepth (by decide)⟩
  · rintro ⟨rfl, hdepth⟩
    exact parse?_write hf ho hdepth

end Json

end ChatRelay
