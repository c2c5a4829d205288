import ChatRelay.Proofs.Codec.Entries

/-!
# Runs of tokens

The text of tokens is the text of their bytes put together (`text?`), since a character may be cut
anywhere. A run can be read as it comes if its bytes are text in the end and are so often enough on
the way (`Readable`); then what is left of it after a part that is text can be read as well
(`Readable.drop`), and fewer than eight tokens have to be gathered at a time
(`Readable.length_lt`).
-/

namespace ChatRelay.Vocabulary

/-! ### Control tokens and text tokens -/

/-- Whether a token is the control token of a text. -/
def isNamed (v : Vocabulary) (text : String) (t : TokenId) : Bool :=
  (v.specialIndex? text).any fun i => t == (i : Int)

/-- Whether a token renders the same with control tokens shown and not shown. -/
def rendersAlike (v : Vocabulary) (t : TokenId) : Bool :=
  decide (v.render false [t] = v.render true [t])

/-- The text of a control token. -/
def spelling (v : Vocabulary) (t : TokenId) : String :=
  match v.entry t with
  | .ok (.control text _) => text
  | _ => ""

/-- The text of tokens, if they are all in the vocabulary and their bytes are text when put
together. -/
def text? (v : Vocabulary) (ts : List TokenId) : Option (List Char) :=
  match v.render false ts with
  | .ok bytes => Utf8.decodeChars? bytes
  | .error _ => none

/-- The text of tokens that are text. -/
def textOf (v : Vocabulary) (ts : List TokenId) : List Char := (v.text? ts).getD []

/-- A run of tokens that can be read as it comes: its bytes are text, and no eight tokens in a row
all end inside a character. The `k`th token ends inside a character if the bytes up to its end are
no text. -/
structure Readable (v : Vocabulary) (run : List TokenId) : Prop where
  isText : (v.text? run).isSome
  settles : ∀ i, i + 8 ≤ run.length →
    ∃ k, i ≤ k ∧ k < i + 8 ∧ (v.text? (run.take (k + 1))).isSome

instance (v : Vocabulary) (run : List TokenId) : Decidable (v.Readable run) :=
  decidable_of_iff
    ((v.text? run).isSome ∧ ∀ i < run.length, i + 8 ≤ run.length →
      ∃ k < i + 8, i ≤ k ∧ (v.text? (run.take (k + 1))).isSome) <| by
    constructor
    · rintro ⟨htext, hsettles⟩
      refine ⟨htext, fun i hi => ?_⟩
      obtain ⟨k, hhigh, hlow, hk⟩ := hsettles i (by omega) hi
      exact ⟨k, hlow, hhigh, hk⟩
    · rintro ⟨htext, hsettles⟩
      refine ⟨htext, fun i _ hi => ?_⟩
      obtain ⟨k, hlow, hhigh, hk⟩ := hsettles i hi
      exact ⟨k, hhigh, hlow, hk⟩

variable {v : Vocabulary}

/-! ### Control tokens -/

/-- A token that renders differently with control tokens shown is a control token. -/
theorem entry_of_not_rendersAlike {t : TokenId} (h : v.rendersAlike t = false) :
    ∃ text shown, v.entry t = .ok (.control text shown) := by
  cases he : v.entry t with
  | error e => simp [rendersAlike, render_cons, he, Except.bind] at h
  | ok e =>
    cases e with
    | control text shown => exact ⟨text, shown, rfl⟩
    | bytes value => simp [rendersAlike, render_single he, Entry.render] at h

/-- The control token of a text is a control token. -/
theorem entry_of_isNamed {text : String} {t : TokenId} (h : v.isNamed text t = true) :
    ∃ shown, v.entry t = .ok (.control text shown) := by
  unfold isNamed at h
  cases hi : v.specialIndex? text with
  | none => simp [hi] at h
  | some i =>
    obtain rfl : t = (i : Int) := by simpa [hi] using h
    exact ⟨_, entry_special (specials_of_specialIndex? hi)⟩

/-! ### Text -/

/-- Text may be read part by part. -/
theorem text?_append {xs : List TokenId} {cs : List Char} (h : v.text? xs = some cs)
    (ys : List TokenId) : v.text? (xs ++ ys) = (v.text? ys).map (cs ++ ·) := by
  cases hx : v.render false xs with
  | error e => simp [text?, hx] at h
  | ok first =>
    have hfirst : Utf8.decodeChars? first = some cs := by simpa [text?, hx] using h
    cases hy : v.render false ys with
    | error e => simp [text?, render_append, hx, hy, Except.bind, Except.map]
    | ok second =>
      simpa [text?, render_append, hx, hy, Except.bind, Except.map]
        using Utf8.decodeChars?_append hfirst second

theorem text?_of_render {ts : List TokenId} {bytes : List UInt8}
    (h : v.render false ts = .ok bytes) : v.text? ts = Utf8.decodeChars? bytes := by
  simp [text?, h]

@[simp] theorem textOf_nil (v : Vocabulary) : v.textOf [] = [] := rfl

theorem textOf_append {xs ys : List TokenId} {cs : List Char} (hx : v.text? xs = some cs)
    (hy : (v.text? ys).isSome) : v.textOf (xs ++ ys) = cs ++ v.textOf ys := by
  obtain ⟨ds, hds⟩ := Option.isSome_iff_exists.1 hy
  simp [textOf, text?_append hx, hds]

/-- What is text renders. -/
theorem renders_of_isSome {ts : List TokenId} (h : (v.text? ts).isSome) :
    ∃ bytes, v.render false ts = .ok bytes := by
  cases ht : v.render false ts with
  | error e => simp [text?, ht] at h
  | ok bytes => exact ⟨bytes, rfl⟩

/-! ### Reading a run as it comes -/

/-- Tokens that have to be gathered: there is no text at their start. -/
def Unread (v : Vocabulary) (ts : List TokenId) : Prop :=
  ∀ k < ts.length, v.text? (ts.take (k + 1)) = none

theorem unread_nil : v.Unread [] := by
  intro k hk
  exact absurd hk (Nat.not_lt_zero k)

theorem Unread.concat {ts : List TokenId} {t : TokenId} (h : v.Unread ts)
    (hlast : v.text? (ts ++ [t]) = none) : v.Unread (ts ++ [t]) := by
  intro k hk
  rw [List.length_append, List.length_singleton] at hk
  rcases Nat.lt_or_ge k ts.length with hlt | hge
  · rw [List.take_append_of_le_length hlt]
    exact h k hlt
  · rw [List.take_of_length_le (by simp; omega)]
    exact hlast

/-- A run that is text is not left unread. -/
theorem Unread.eq_nil {ts : List TokenId} (h : v.Unread ts) (htext : (v.text? ts).isSome) :
    ts = [] := by
  cases ts with
  | nil => rfl
  | cons t ts =>
    have := h ts.length (by simp)
    rw [List.take_of_length_le (by simp)] at this
    simp [this] at htext

/-- Fewer than eight tokens have to be gathered at a time. -/
theorem Readable.length_lt {ts rest : List TokenId} (h : v.Readable (ts ++ rest))
    (hu : v.Unread ts) : ts.length < 8 := by
  by_contra hlen
  obtain ⟨k, -, hk, htext⟩ := h.settles 0 (by rw [List.length_append]; omega)
  have hlt : k < ts.length := by omega
  rw [List.take_append_of_le_length hlt, hu k hlt] at htext
  simp at htext

/-- The next token of a run renders, alone and after what was gathered. -/
theorem Readable.renders {ts rest : List TokenId} {t : TokenId}
    (h : v.Readable (ts ++ [t] ++ rest)) :
    (∃ bytes, v.render false [t] = .ok bytes) ∧ ∃ all, v.render false (ts ++ [t]) = .ok all := by
  obtain ⟨whole, hwhole⟩ := renders_of_isSome h.isText
  obtain ⟨⟨all, hall⟩, -⟩ := renders_of_append hwhole
  exact ⟨(renders_of_append hall).2, ⟨all, hall⟩⟩

/-- What comes after a part that is text can be read as it comes. -/
theorem Readable.drop {ts rest : List TokenId} {cs : List Char} (h : v.Readable (ts ++ rest))
    (htext : v.text? ts = some cs) : v.Readable rest := by
  constructor
  · have := h.isText
    rw [text?_append htext, Option.isSome_map] at this
    exact this
  · intro i hi
    obtain ⟨k, hlow, hhigh, hk⟩ := h.settles (ts.length + i) (by rw [List.length_append]; omega)
    refine ⟨k - ts.length, by omega, by omega, ?_⟩
    have htake : (ts ++ rest).take (k + 1) = ts ++ rest.take (k - ts.length + 1) := by
      rw [List.take_append, List.take_of_length_le (by omega)]
      congr 2
      omega
    rw [htake, text?_append htext, Option.isSome_map] at hk
    exact hk

end ChatRelay.Vocabulary
