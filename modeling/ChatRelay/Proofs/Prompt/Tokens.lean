import ChatRelay.Proofs.Codec.Tokenizing
import ChatRelay.Prompt.Render

/-!
# The tokens of segments

A byte-level vocabulary tokenizes every list of segments, one after the other
(`segmentTokens_codec`). Without pieces in the vocabulary it does not matter whether the segments
have been merged before, if no control text ends with the beginning of a control token
(`ids_merge`).
-/

namespace ChatRelay

/-- The vocabulary of the control tokens of a dialect and the bytes. -/
def Dialect.vocabulary (d : Dialect) : Vocabulary :=
  .ofSpecials d.grammar.controlTokens

namespace Segment

/-- The tokens of a segment. -/
def ids (v : Vocabulary) (s : Segment) : List TokenId :=
  v.tokens (Utf8.encode s.text) s.isControl

theorem encode_append (s t : String) :
    Utf8.encode (s ++ t) = Utf8.encode s ++ Utf8.encode t := by
  rw [Utf8.encode, String.toList_append, Utf8.encodeChars, List.flatMap_append]
  rfl

theorem encode_flatten_cons (s : Segment) (rest : List Segment) :
    Utf8.encode (flatten (s :: rest)) = Utf8.encode s.text ++ Utf8.encode (flatten rest) := by
  rw [flatten, List.map_cons, String.join_cons, encode_append]
  rfl

/-- Without pieces, literal text is its bytes. -/
theorem ids_literal {v : Vocabulary} (hv : v.pieces = []) (text : String) :
    (literal text).ids v = v.byteTokens (Utf8.encode text) :=
  Vocabulary.tokens_literal hv _

/-- What is read off segments one by one may be read off merged ones, if an empty segment has
nothing to read and each segment is read as if no text of its kind followed. -/
theorem flatMap_merge {α : Type} (read : Segment → List α) {segments : List Segment}
    (hnil : ∀ kind, read ⟨kind, ""⟩ = [])
    (happend : ∀ s ∈ segments, ∀ text,
      read ⟨s.isControl, s.text ++ text⟩ = read s ++ read ⟨s.isControl, text⟩) :
    (merge segments).flatMap read = segments.flatMap read := by
  induction segments with
  | nil => rfl
  | cons s rest ih =>
    obtain ⟨hs, hrest⟩ := List.forall_mem_cons.1 happend
    have hcons : (cons s (merge rest)).flatMap read = read s ++ (merge rest).flatMap read := by
      unfold cons
      split
      · next hempty =>
        obtain ⟨kind, text⟩ := s
        obtain rfl : text = "" := hempty
        rw [hnil, List.nil_append]
      · cases merge rest with
        | nil => rfl
        | cons t others =>
          by_cases hkind : s.isControl = t.isControl
          · simp only [hkind, if_true, List.flatMap_cons]
            rw [← List.append_assoc, ← hkind, hs t.text, hkind]
          · simp only [hkind, if_false, List.flatMap_cons]
    rw [merge, List.foldr_cons, ← merge, hcons, ih hrest, List.flatMap_cons]

/-- Without pieces, merging changes no token, if no control text ends with the beginning of a
control token. -/
theorem ids_merge {v : Vocabulary} (hv : v.pieces = []) {segments : List Segment}
    (hclosed : ∀ s ∈ segments, s.isControl = true → v.Closed (Utf8.encode s.text)) :
    (merge segments).flatMap (·.ids v) = segments.flatMap (·.ids v) := by
  refine flatMap_merge _ (fun kind => rfl) fun s hs text => ?_
  obtain ⟨kind, own⟩ := s
  simp only [ids, encode_append]
  cases kind with
  | false =>
    rw [Vocabulary.tokens_literal hv, Vocabulary.tokens_literal hv, Vocabulary.tokens_literal hv]
    exact List.map_append
  | true => exact Vocabulary.tokens_append hv (hclosed _ hs rfl) _

end Segment

namespace Prompt

/-- The tokens of segments are the tokens of each. -/
theorem segmentTokens_codec (v : Vocabulary) (segments : List Segment) :
    segmentTokens v.codec segments = .ok (segments.flatMap (·.ids v)) := by
  induction segments with
  | nil => rfl
  | cons s rest ih =>
    rw [segmentTokens, ih]
    rfl

end Prompt

end ChatRelay
