import ChatRelay.Stream.Markers
import Mathlib

/-!
# Cutting a growing text at a marker

`cut?` is what it means to cut a text at a marker: at the leftmost occurrence, and nowhere if there
is none (`cut?_eq_some_iff`, `cut?_eq_none_iff`). `stretches` is cutting again and again
(`stretches_of_some`, `stretches_of_none`).

A text that is read while it grows is cut at the same places as the whole text. A cut stays where it
is when more comes (`cut?_append_of_some`); and where there is no cut yet, only the held end of the
text matters for what comes, because nothing before it can be part of a marker
(`cut?_append_of_none`, `splitHeld_append_of_none`).
-/

namespace ChatRelay.Markers

/-- The text before the leftmost occurrence of a marker, and the text after it. -/
def cut? (marker : List Char) : List Char → Option (List Char × List Char)
  | [] => none
  | c :: cs =>
    if marker.isPrefixOf (c :: cs) then some ([], cs.drop (marker.length - 1))
    else (cut? marker cs).map fun (before, after) => (c :: before, after)

/-- Characters put before both parts of a cut. -/
def prepend (cs : List Char) (parts : List Char × List Char) : List Char × List Char :=
  (cs ++ parts.1, parts.2)

@[simp] theorem prepend_nil (parts : List Char × List Char) : prepend [] parts = parts := rfl

variable {marker cs before after : List Char}

theorem cut?_cons_here {c : Char} (h : marker <+: c :: cs) :
    cut? marker (c :: cs) = some ([], cs.drop (marker.length - 1)) := by
  rw [cut?, if_pos (List.isPrefixOf_iff_prefix.2 h)]

theorem cut?_cons_later {c : Char} (h : ¬ marker <+: c :: cs) :
    cut? marker (c :: cs) = (cut? marker cs).map (prepend [c]) := by
  rw [cut?, if_neg (fun hp => h (List.isPrefixOf_iff_prefix.1 hp))]
  rfl

theorem cut?_cons_eq_none {c : Char} :
    cut? marker (c :: cs) = none ↔ ¬ marker <+: c :: cs ∧ cut? marker cs = none := by
  by_cases h : marker <+: c :: cs
  · simp [cut?_cons_here h, h]
  · simp [cut?_cons_later h, h]

/-- Where the first character of a marker is nowhere before it, the text is cut at the marker. -/
theorem cut?_of_not_mem {m : Char} {ms : List Char} (h : m ∉ before) (after : List Char) :
    cut? (m :: ms) (before ++ (m :: ms) ++ after) = some (before, after) := by
  induction before with
  | nil =>
    rw [List.nil_append, List.cons_append, cut?_cons_here ⟨after, rfl⟩]
    simp
  | cons c before ih =>
    rw [List.mem_cons, not_or] at h
    have hlater : ¬ m :: ms <+: c :: (before ++ (m :: ms) ++ after) := by
      rw [List.cons_prefix_cons]
      exact fun hp => h.1 hp.1
    rw [List.cons_append, List.cons_append, cut?_cons_later hlater, ih h.2]
    rfl

/-! ### The leftmost occurrence -/

theorem cut?_eq_none_iff (hm : marker ≠ []) : cut? marker cs = none ↔ ¬ marker <:+: cs := by
  induction cs with
  | nil => simp [cut?, hm]
  | cons c cs ih => rw [cut?_cons_eq_none, ih, List.infix_cons_iff, not_or]

/-- A marker is nowhere further left than where a text is cut, and the text is what it was. -/
theorem cut?_eq_some_iff (hm : marker ≠ []) :
    cut? marker cs = some (before, after) ↔
      cs = before ++ marker ++ after ∧
        ∀ b a, cs = b ++ marker ++ a → before.length ≤ b.length := by
  obtain ⟨m, ms, rfl⟩ := List.exists_cons_of_ne_nil hm
  induction cs generalizing before with
  | nil => simp [cut?]
  | cons c cs ih =>
    by_cases hp : m :: ms <+: c :: cs
    · obtain ⟨t, ht⟩ := hp
      obtain ⟨rfl, rfl⟩ : m = c ∧ ms ++ t = cs := by simpa using ht
      rw [cut?_cons_here ⟨t, rfl⟩]
      constructor
      · intro h
        obtain ⟨rfl, rfl⟩ : [] = before ∧ t = after := by simpa using h
        exact ⟨rfl, fun b a _ => Nat.zero_le _⟩
      · rintro ⟨heq, hleft⟩
        have hb : before = [] := List.length_eq_zero_iff.1 (Nat.le_zero.1 (hleft [] t (by simp)))
        subst hb
        simpa using heq
    · rw [cut?_cons_later hp]
      constructor
      · intro h
        obtain ⟨⟨b, a⟩, hb, he⟩ := Option.map_eq_some_iff.1 h
        obtain ⟨rfl, rfl⟩ : c :: b = before ∧ a = after := by simpa [prepend] using he
        obtain ⟨heq, hleft⟩ := ih.1 hb
        refine ⟨by rw [heq]; simp, ?_⟩
        intro b' a' h'
        cases b' with
        | nil => exact absurd ⟨a', by simpa using h'.symm⟩ hp
        | cons x xs =>
          have htail : cs = xs ++ (m :: ms) ++ a' := by simpa using (List.cons.inj h').2
          simpa using hleft xs a' htail
      · rintro ⟨heq, hleft⟩
        cases before with
        | nil => exact absurd ⟨after, by simpa using heq.symm⟩ hp
        | cons x xs =>
          obtain ⟨rfl, htail⟩ : c = x ∧ cs = xs ++ (m :: ms) ++ after := by simpa using heq
          have hcut : cut? (m :: ms) cs = some (xs, after) := by
            refine ih.2 ⟨htail, fun b a h' => ?_⟩
            simpa using hleft (c :: b) a (by rw [h']; simp)
          rw [hcut]
          rfl

theorem length_lt_of_cut? (h : cut? marker cs = some (before, after)) :
    after.length < cs.length := by
  induction cs generalizing before with
  | nil => simp [cut?] at h
  | cons c cs ih =>
    by_cases hp : marker <+: c :: cs
    · rw [cut?_cons_here hp] at h
      obtain ⟨-, rfl⟩ : [] = before ∧ cs.drop (marker.length - 1) = after := by simpa using h
      simp only [List.length_drop, List.length_cons]
      omega
    · rw [cut?_cons_later hp] at h
      obtain ⟨⟨b, a⟩, hb, he⟩ := Option.map_eq_some_iff.1 h
      obtain ⟨-, rfl⟩ : c :: b = before ∧ a = after := by simpa [prepend] using he
      have := ih hb
      simp only [List.length_cons]
      omega

/-- A text that is cut is at least as long as the marker. -/
theorem marker_length_le_of_cut? (h : cut? marker cs = some (before, after)) :
    marker.length ≤ cs.length := by
  induction cs generalizing before after with
  | nil => simp [cut?] at h
  | cons c cs ih =>
    by_cases hp : marker <+: c :: cs
    · exact hp.length_le
    · rw [cut?_cons_later hp] at h
      obtain ⟨⟨b, a⟩, hb, -⟩ := Option.map_eq_some_iff.1 h
      exact Nat.le_succ_of_le (ih hb)

/-! ### Texts that grow -/

/-- A cut stays where it is when more text comes. -/
theorem cut?_append_of_some (h : cut? marker cs = some (before, after)) (more : List Char) :
    cut? marker (cs ++ more) = some (before, after ++ more) := by
  induction cs generalizing before with
  | nil => simp [cut?] at h
  | cons c cs ih =>
    by_cases hp : marker <+: c :: cs
    · have hlen := hp.length_le
      rw [cut?_cons_here hp] at h
      obtain ⟨rfl, rfl⟩ : [] = before ∧ cs.drop (marker.length - 1) = after := by simpa using h
      have hp' : marker <+: c :: (cs ++ more) := hp.trans (List.prefix_append (c :: cs) more)
      rw [List.cons_append, cut?_cons_here hp',
        List.drop_append_of_le_length (by simp only [List.length_cons] at hlen; omega)]
    · rw [cut?_cons_later hp] at h
      obtain ⟨⟨b, a⟩, hb, he⟩ := Option.map_eq_some_iff.1 h
      obtain ⟨rfl, rfl⟩ : c :: b = before ∧ a = after := by simpa [prepend] using he
      -- The marker fits into what is there already, so what comes cannot complete it earlier.
      have hlen := marker_length_le_of_cut? hb
      have hp' : ¬ marker <+: c :: (cs ++ more) := fun hlong =>
        hp (List.prefix_of_prefix_length_le hlong (List.prefix_append (c :: cs) more)
          (by simp only [List.length_cons]; omega))
      rw [List.cons_append, cut?_cons_later hp', ih hb]
      rfl

/-- Whether a text could be the start of a marker that is not complete yet. -/
abbrev Opens (marker cs : List Char) : Prop := cs <+: marker ∧ cs.length < marker.length

theorem splitHeld_cons_of_opens {c : Char} (h : Opens marker (c :: cs)) :
    splitHeld marker (c :: cs) = ([], c :: cs) := by
  rw [splitHeld, if_pos (by simpa [Opens] using h)]

theorem splitHeld_cons_of_not_opens {c : Char} (h : ¬ Opens marker (c :: cs)) :
    splitHeld marker (c :: cs) = prepend [c] (splitHeld marker cs) := by
  rw [splitHeld, if_neg (by simpa [Opens] using h)]
  rfl

/-- Where neither a marker nor the start of one stands, more text makes none. -/
theorem not_prefix_append {c : Char} (hp : ¬ marker <+: c :: cs) (ho : ¬ Opens marker (c :: cs))
    (more : List Char) :
    ¬ marker <+: c :: (cs ++ more) ∧ ¬ Opens marker (c :: (cs ++ more)) := by
  constructor
  · intro h
    rcases List.prefix_or_prefix_of_prefix h (List.prefix_append (c :: cs) more) with h' | h'
    · exact hp h'
    · rcases Nat.lt_or_ge (c :: cs).length marker.length with hl | hl
      · exact ho ⟨h', hl⟩
      · exact hp (h'.eq_of_length_le hl ▸ List.prefix_rfl)
  · rintro ⟨h, hl⟩
    refine ho ⟨(List.prefix_append (c :: cs) more).trans h, ?_⟩
    simp only [List.length_cons, List.length_append] at hl ⊢
    omega

/-- Where there is no cut yet, the first cut depends on what is held only. -/
theorem cut?_append_of_none (h : cut? marker cs = none) (more : List Char) :
    cut? marker (cs ++ more) =
      (cut? marker ((splitHeld marker cs).2 ++ more)).map (prepend (splitHeld marker cs).1) := by
  induction cs with
  | nil => cases hc : cut? marker more <;> simp [splitHeld, hc]
  | cons c cs ih =>
    obtain ⟨hp, hrest⟩ := cut?_cons_eq_none.1 h
    by_cases ho : Opens marker (c :: cs)
    · rw [splitHeld_cons_of_opens ho]
      cases hc : cut? marker (c :: cs ++ more) <;> simp
    · rw [splitHeld_cons_of_not_opens ho, List.cons_append,
        cut?_cons_later (not_prefix_append hp ho more).1, ih hrest, Option.map_map]
      rfl

/-- Where there is no cut yet, what is held of more text depends on what is held only. -/
theorem splitHeld_append_of_none (h : cut? marker cs = none) (more : List Char) :
    splitHeld marker (cs ++ more) =
      prepend (splitHeld marker cs).1 (splitHeld marker ((splitHeld marker cs).2 ++ more)) := by
  induction cs with
  | nil => simp [splitHeld]
  | cons c cs ih =>
    obtain ⟨hp, hrest⟩ := cut?_cons_eq_none.1 h
    by_cases ho : Opens marker (c :: cs)
    · rw [splitHeld_cons_of_opens ho, prepend_nil]
    · rw [splitHeld_cons_of_not_opens ho, List.cons_append,
        splitHeld_cons_of_not_opens (not_prefix_append hp ho more).2, ih hrest]
      rfl

/-- What is held has no cut in it and is held again. -/
theorem splitHeld_held (marker cs : List Char) :
    cut? marker (splitHeld marker cs).2 = none ∧
      splitHeld marker (splitHeld marker cs).2 = ([], (splitHeld marker cs).2) := by
  induction cs with
  | nil => exact ⟨rfl, rfl⟩
  | cons c cs ih =>
    by_cases ho : Opens marker (c :: cs)
    · rw [splitHeld_cons_of_opens ho]
      refine ⟨?_, splitHeld_cons_of_opens ho⟩
      cases hc : cut? marker (c :: cs) with
      | none => rfl
      | some parts => exact absurd (marker_length_le_of_cut? hc) (Nat.not_le.2 ho.2)
    · rw [splitHeld_cons_of_not_opens ho]
      exact ih

/-! ### Stretches -/

/-- Characters of a marker are skipped. -/
theorem stretchesAfter_eq_drop (m : Markers) (skip : Nat) (inside : Bool) (cs : List Char) :
    m.stretchesAfter skip inside cs = m.stretches inside (cs.drop skip) := by
  induction cs generalizing skip with
  | nil => cases skip <;> rfl
  | cons c cs ih =>
    cases skip with
    | zero => rfl
    | succ skip => rw [stretchesAfter, ih, List.drop_succ_cons]

theorem stretches_of_none {m : Markers} {inside : Bool} (h : cut? (m.next inside) cs = none) :
    m.stretches inside cs = (cs, []) := by
  induction cs with
  | nil => rfl
  | cons c cs ih =>
    obtain ⟨hp, hrest⟩ := cut?_cons_eq_none.1 h
    rw [stretches, stretchesAfter, if_neg (fun hb => hp (List.isPrefixOf_iff_prefix.1 hb)),
      ← stretches, ih hrest]

/-- A text is cut at the first marker, and the rest is cut in turn. -/
theorem stretches_of_some {m : Markers} {inside : Bool}
    (h : cut? (m.next inside) cs = some (before, after)) :
    m.stretches inside cs =
      (before, (m.stretches (!inside) after).1 :: (m.stretches (!inside) after).2) := by
  induction cs generalizing before with
  | nil => simp [cut?] at h
  | cons c cs ih =>
    rw [stretches, stretchesAfter]
    by_cases hp : m.next inside <+: c :: cs
    · rw [cut?_cons_here hp] at h
      obtain ⟨rfl, rfl⟩ : [] = before ∧ cs.drop ((m.next inside).length - 1) = after := by
        simpa using h
      rw [if_pos (List.isPrefixOf_iff_prefix.2 hp), stretchesAfter_eq_drop]
    · rw [cut?_cons_later hp] at h
      obtain ⟨⟨b, a⟩, hb, he⟩ := Option.map_eq_some_iff.1 h
      obtain ⟨rfl, rfl⟩ : c :: b = before ∧ a = after := by simpa [prepend] using he
      rw [if_neg (fun hb' => hp (List.isPrefixOf_iff_prefix.1 hb')), ← stretches, ih hb]

end ChatRelay.Markers
