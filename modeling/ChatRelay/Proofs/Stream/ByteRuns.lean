import ChatRelay.Proofs.Codec.Entries
import ChatRelay.Proofs.Stream.Reading

/-!
# Runs of byte tokens

A literal text without pieces is a run of byte tokens, and its text is read as it comes, since no
character has more than four bytes (`readable_byteTokens`). So a reply that was put together from
literal texts and control tokens is cut into just these (`runs_byteTokens_append`).
-/

namespace ChatRelay.Utf8

/-- Within four bytes of any place in a text a character ends. -/
theorem exists_boundary {cs : List Char} {i : Nat} (hi : i < (encodeChars cs).length) :
    ∃ k n, i ≤ k ∧ k < i + 4 ∧ (encodeChars cs).take (k + 1) = encodeChars (cs.take n) := by
  induction cs generalizing i with
  | nil => exact absurd hi (Nat.not_lt_zero _)
  | cons c cs ih =>
    have hpos : 0 < (String.utf8EncodeChar c).length := by
      rw [String.length_utf8EncodeChar]
      exact c.utf8Size_pos
    have hfour : (String.utf8EncodeChar c).length ≤ 4 := by
      rw [String.length_utf8EncodeChar]
      exact c.utf8Size_le_four
    have hcons : encodeChars (c :: cs) = String.utf8EncodeChar c ++ encodeChars cs :=
      List.flatMap_cons
    rw [hcons, List.length_append] at hi
    rw [hcons]
    by_cases hfirst : i < (String.utf8EncodeChar c).length
    · refine ⟨(String.utf8EncodeChar c).length - 1, 1, by omega, by omega, ?_⟩
      rw [Nat.sub_add_cancel hpos, List.take_left]
      exact (List.append_nil _).symm
    · obtain ⟨k, n, hlow, hhigh, htake⟩ :=
        ih (show i - (String.utf8EncodeChar c).length < _ by omega)
      refine ⟨k + (String.utf8EncodeChar c).length, n + 1, by omega, by omega, ?_⟩
      rw [List.take_append, List.take_of_length_le (by omega), List.take_succ_cons,
        show k + (String.utf8EncodeChar c).length + 1 - (String.utf8EncodeChar c).length = k + 1
          by omega, htake]
      rfl

end ChatRelay.Utf8

namespace ChatRelay.Vocabulary

variable {v : Vocabulary}

theorem byteTokens_encodeChars_append (v : Vocabulary) (xs ys : List Char) :
    v.byteTokens (Utf8.encodeChars (xs ++ ys)) =
      v.byteTokens (Utf8.encodeChars xs) ++ v.byteTokens (Utf8.encodeChars ys) := by
  rw [Utf8.encodeChars, List.flatMap_append, byteTokens, List.map_append]
  rfl

/-- The byte tokens of a text are that text. -/
theorem text?_byteTokens (v : Vocabulary) (cs : List Char) :
    v.text? (v.byteTokens (Utf8.encodeChars cs)) = some cs := by
  rw [text?_of_render (render_byteTokens v false _), Utf8.decodeChars?_encodeChars]

@[simp] theorem textOf_byteTokens (v : Vocabulary) (cs : List Char) :
    v.textOf (v.byteTokens (Utf8.encodeChars cs)) = cs := by
  rw [textOf, text?_byteTokens, Option.getD_some]

/-- The byte tokens of a text can be read as they come. -/
theorem readable_byteTokens (v : Vocabulary) (cs : List Char) :
    v.Readable (v.byteTokens (Utf8.encodeChars cs)) where
  isText := by rw [text?_byteTokens, Option.isSome_some]
  settles := by
    intro i hi
    rw [byteTokens, List.length_map] at hi
    obtain ⟨k, n, hlow, hhigh, htake⟩ :=
      Utf8.exists_boundary (show i < (Utf8.encodeChars cs).length by omega)
    -- Up to the end of that character the run is a text of its own.
    refine ⟨k, hlow, by omega, ?_⟩
    rw [byteTokens, ← List.map_take, htake, ← byteTokens, text?_byteTokens, Option.isSome_some]

end ChatRelay.Vocabulary

namespace ChatRelay.Reading

variable {v : Vocabulary}

/-- A byte token is no control token. -/
theorem control?_byteToken (g : Grammar) (v : Vocabulary) (b : UInt8) :
    control? g v (v.byteToken b) = none := by
  have hnamed : ∀ text, v.isNamed text (v.byteToken b) = false := by
    intro text
    by_contra h
    obtain ⟨shown, hentry⟩ := Vocabulary.entry_of_isNamed (Bool.of_not_eq_false h)
    rw [Vocabulary.entry_byteToken] at hentry
    cases hentry
  have halike : v.rendersAlike (v.byteToken b) = true := by
    rw [Vocabulary.rendersAlike, Vocabulary.render_single (Vocabulary.entry_byteToken v b),
      Vocabulary.render_single (Vocabulary.entry_byteToken v b)]
    exact decide_eq_true rfl
  rw [control?]
  simp [hnamed, halike]

/-- A control token ends the run before it. -/
theorem runs_control {g : Grammar} {t : TokenId} {c : Control} (h : control? g v t = some c)
    (ids : List TokenId) :
    runs g v (t :: ids) = ([], (c, (runs g v ids).1) :: (runs g v ids).2) := by
  rw [runs, h]

/-- Byte tokens go on with the run before them. -/
theorem runs_byteTokens_append (g : Grammar) (v : Vocabulary) (bytes : List UInt8)
    (ids : List TokenId) :
    runs g v (v.byteTokens bytes ++ ids) =
      (v.byteTokens bytes ++ (runs g v ids).1, (runs g v ids).2) := by
  induction bytes with
  | nil => rfl
  | cons b bytes ih =>
    rw [Vocabulary.byteTokens, List.map_cons, List.cons_append, runs, ← Vocabulary.byteTokens, ih,
      control?_byteToken]
    rfl

/-- A text is one run. -/
theorem runs_byteTokens (g : Grammar) (v : Vocabulary) (bytes : List UInt8) :
    runs g v (v.byteTokens bytes) = (v.byteTokens bytes, []) := by
  have := runs_byteTokens_append g v bytes []
  rwa [List.append_nil, runs, List.append_nil] at this

end ChatRelay.Reading
