import ChatRelay.Prompt.Render
import Mathlib.Data.List.Chain

/-!
# Merged segments

Many lists of segments say the same, character by character and each of its kind. One of them is
merged (`IsMerged`): it has no empty segment, and its kinds alternate. Merging finds it. All that
merging looks at is the characters and their kinds (`merge_eq_ofMarks`), and it leaves merged
segments alone (`IsMerged.merge_eq`), so there is no other merged list that says the same
(`merge_eq_iff`). That is also why it does not matter from which end segments are merged: those that
are pushed one after the other become what merging makes of them as a whole (`foldl_push`).
-/

namespace ChatRelay

namespace Segment

/-! ### Merged segments -/

/-- No segment is empty, and neighbours are of different kinds. -/
@[mk_iff]
structure IsMerged (segments : List Segment) : Prop where
  nonempty : ∀ s ∈ segments, s.text ≠ ""
  alternating : (segments.map isControl).IsChain (· ≠ ·)

instance (segments : List Segment) : Decidable (IsMerged segments) :=
  decidable_of_iff' _ (isMerged_iff segments)

variable {s : Segment} {segments others merged : List Segment}

theorem isMerged_nil : IsMerged [] := ⟨nofun, .nil⟩

theorem IsMerged.tail (h : IsMerged (s :: merged)) : IsMerged merged :=
  ⟨fun t ht => h.nonempty t (List.mem_cons_of_mem _ ht), h.alternating.tail⟩

/-- A segment put before merged ones leaves them merged. -/
theorem IsMerged.cons (h : IsMerged merged) (s : Segment) : IsMerged (cons s merged) := by
  unfold Segment.cons
  split
  · exact h
  next hs =>
  split
  · next t rest =>
    obtain ⟨ht, hrest⟩ := List.forall_mem_cons.1 h.nonempty
    split
    · next hkind =>
      -- The segment that was first has more text and the same kind.
      have htext : s.text ++ t.text ≠ "" := fun hempty => hs (String.append_eq_empty_iff.1 hempty).1
      refine ⟨List.forall_mem_cons.2 ⟨htext, hrest⟩, ?_⟩
      rw [List.map_cons, hkind]
      exact h.alternating
    · next hkind =>
      exact ⟨List.forall_mem_cons.2 ⟨hs, h.nonempty⟩,
        List.isChain_cons_cons.2 ⟨hkind, h.alternating⟩⟩
  · exact ⟨List.forall_mem_singleton.2 hs, .singleton _⟩

theorem isMerged_merge (segments : List Segment) : IsMerged (merge segments) := by
  induction segments with
  | nil => exact isMerged_nil
  | cons s rest ih => exact ih.cons s

/-- Where the segments are merged with it, a segment is put before the others as it is. -/
theorem IsMerged.cons_eq (h : IsMerged (s :: merged)) : Segment.cons s merged = s :: merged := by
  have hs : s.text ≠ "" := h.nonempty s (List.mem_cons_self ..)
  unfold Segment.cons
  rw [if_neg hs]
  cases merged with
  | nil => rfl
  | cons t rest =>
    have hkind : s.isControl ≠ t.isControl := (List.isChain_cons_cons.1 h.alternating).1
    exact if_neg hkind

/-- Merging leaves merged segments alone. -/
theorem IsMerged.merge_eq (h : IsMerged merged) : merge merged = merged := by
  induction merged with
  | nil => rfl
  | cons s rest ih =>
    rw [merge, List.foldr_cons, ← merge, ih h.tail, h.cons_eq]

/-! ### Marks -/

theorem marks_append (segments others : List Segment) :
    marks (segments ++ others) = marks segments ++ marks others :=
  List.flatMap_append

/-- The merged segments that say the characters, each of its kind. -/
def ofMarks (characters : List (Char × Bool)) : List Segment :=
  characters.foldr (fun m => cons ⟨m.2, String.singleton m.1⟩) []

/-- A segment may be put before merged ones in two parts. -/
theorem cons_append (kind : Bool) (text more : String) (merged : List Segment) :
    cons ⟨kind, text ++ more⟩ merged = cons ⟨kind, text⟩ (cons ⟨kind, more⟩ merged) := by
  by_cases htext : text = ""
  · simp [cons, htext]
  by_cases hmore : more = ""
  · simp [cons, hmore]
  cases merged with
  | nil => simp [cons, htext, hmore]
  | cons t rest =>
    by_cases hkind : kind = t.isControl
    · simp [cons, htext, hmore, hkind, String.append_assoc]
    · simp [cons, htext, hmore, hkind]

/-- A segment may be put before merged ones character by character. -/
theorem cons_eq_foldr (s : Segment) (merged : List Segment) :
    cons s merged =
      (marks [s]).foldr (fun m => cons ⟨m.2, String.singleton m.1⟩) merged := by
  obtain ⟨kind, text⟩ := s
  obtain ⟨characters, rfl⟩ : ∃ characters, text = String.ofList characters :=
    ⟨text.toList, String.ofList_toList.symm⟩
  induction characters with
  | nil => rfl
  | cons c characters ih =>
    rw [String.ofList_cons, cons_append, ih]
    simp [marks]

/-- Merging looks at the characters and their kinds only. -/
theorem merge_eq_ofMarks (segments : List Segment) : merge segments = ofMarks (marks segments) := by
  induction segments with
  | nil => rfl
  | cons s rest ih =>
    rw [merge, List.foldr_cons, ← merge, ih, cons_eq_foldr, ofMarks, ofMarks, ← List.foldr_append,
      ← marks_append, List.singleton_append]

/-- Segments are merged alike if and only if they say the same. -/
theorem merge_inj : merge segments = merge others ↔ marks segments = marks others := by
  constructor
  · intro h
    rw [← marks_merge segments, h, marks_merge]
  · intro h
    rw [merge_eq_ofMarks, h, merge_eq_ofMarks]

/-- Among the lists that say the same one is merged, and merging finds it. -/
theorem merge_eq_iff :
    merge segments = merged ↔ IsMerged merged ∧ marks merged = marks segments := by
  constructor
  · rintro rfl
    exact ⟨isMerged_merge segments, marks_merge segments⟩
  · rintro ⟨hmerged, hmarks⟩
    rw [← merge_inj.2 hmarks, hmerged.merge_eq]

/-- Merging leaves alone the merged lists and no others. -/
theorem merge_eq_self_iff : merge merged = merged ↔ IsMerged merged :=
  merge_eq_iff.trans (and_iff_left rfl)

example : ¬ IsMerged [control "a", literal "", control "b"] := by decide

/-! ### Pushing -/

/-- Puts a segment after merged ones. -/
def push (merged : List Segment) (s : Segment) : List Segment :=
  if s.text = "" then merged
  else
    match merged.getLast? with
    | some last =>
      if s.isControl = last.isControl then
        merged.dropLast ++ [⟨last.isControl, last.text ++ s.text⟩]
      else merged ++ [s]
    | none => [s]

theorem push_empty (merged : List Segment) (hs : s.text = "") : push merged s = merged :=
  if_pos hs

theorem push_nil (hs : s.text ≠ "") : push [] s = [s] :=
  if_neg hs

theorem push_concat (front : List Segment) (last : Segment) (hs : s.text ≠ "") :
    push (front ++ [last]) s =
      if s.isControl = last.isControl then front ++ [⟨last.isControl, last.text ++ s.text⟩]
      else front ++ [last] ++ [s] := by
  simp [push, hs]

theorem marks_push (merged : List Segment) (s : Segment) :
    marks (push merged s) = marks merged ++ marks [s] := by
  by_cases hs : s.text = ""
  · rw [push_empty _ hs]
    simp [marks, hs]
  rcases List.eq_nil_or_concat' merged with rfl | ⟨front, last, rfl⟩
  · rw [push_nil hs]
    rfl
  · rw [push_concat _ _ hs]
    split
    · next hkind => simp [marks, hkind]
    · exact marks_append ..

/-- A segment put after merged ones leaves them merged. -/
theorem IsMerged.push (h : IsMerged merged) (s : Segment) : IsMerged (push merged s) := by
  by_cases hs : s.text = ""
  · rwa [push_empty _ hs]
  rcases List.eq_nil_or_concat' merged with rfl | ⟨front, last, rfl⟩
  · rw [push_nil hs]
    exact ⟨List.forall_mem_singleton.2 hs, .singleton _⟩
  rw [push_concat _ _ hs]
  obtain ⟨hfront, hlast⟩ := List.forall_mem_append.1 h.nonempty
  split
  · -- The segment that was last has more text and the same kind.
    have htext : last.text ++ s.text ≠ "" :=
      fun hempty => hs (String.append_eq_empty_iff.1 hempty).2
    refine ⟨List.forall_mem_append.2 ⟨hfront, List.forall_mem_singleton.2 htext⟩, ?_⟩
    have halternating := h.alternating
    rw [List.map_append] at halternating ⊢
    exact halternating
  · next hkind =>
    refine ⟨List.forall_mem_append.2 ⟨h.nonempty, List.forall_mem_singleton.2 hs⟩, ?_⟩
    rw [List.map_append]
    refine List.isChain_append.2 ⟨h.alternating, .singleton _, fun k hk k' hk' => ?_⟩
    simp only [List.map_append, List.map_cons, List.map_nil, List.getLast?_concat,
      List.head?_cons, Option.mem_def, Option.some.injEq] at hk hk'
    rw [← hk, ← hk']
    exact Ne.symm hkind

/-- Segments pushed one after the other on merged ones are merged with them. -/
theorem foldl_push (h : IsMerged merged) (segments : List Segment) :
    segments.foldl push merged = merge (merged ++ segments) := by
  induction segments generalizing merged with
  | nil => rw [List.foldl_nil, List.append_nil, h.merge_eq]
  | cons s rest ih =>
    -- What is pushed is said in the same place, and merging looks at nothing else.
    have hmarks : marks (push merged s ++ rest) = marks (merged ++ s :: rest) := by
      rw [marks_append, marks_push, ← marks_append, ← marks_append, List.append_assoc,
        List.singleton_append]
    rw [List.foldl_cons, ih (h.push s), merge_inj.2 hmarks]

/-- An empty segment does not keep its neighbours apart. -/
example : [control "a", literal "", control "b"].foldl push [] = [control "ab"] := by decide

end Segment

namespace Prompt

open Segment

/-- The prompt of a conversation that is not refused has no empty segment, and control text and
literal text alternate in it; its parts become it when they are pushed one after the other. Whatever
segments are pushed, they become what merging makes of them: the result is merged, it says the same
as they do, each character of its kind, and merging it again changes nothing. Two lists have the
same result if and only if they say the same, and a list is its own result if and only if it is
merged. -/
theorem merge_canonical :
    (∀ d messages tools merged, segments d messages tools = .ok merged →
      IsMerged merged ∧
        ∃ parts, unmerged d messages tools = .ok parts ∧ parts.foldl push [] = merged) ∧
    (∀ pushed : List Segment, pushed.foldl push [] = merge pushed ∧ IsMerged (merge pushed) ∧
      marks (merge pushed) = marks pushed ∧ merge (merge pushed) = merge pushed) ∧
    (∀ pushed others : List Segment,
      merge pushed = merge others ↔ marks pushed = marks others) ∧
    ∀ merged : List Segment, merge merged = merged ↔ IsMerged merged := by
  refine ⟨fun d messages tools merged h => ?prompt, fun pushed => ?result,
    fun _ _ => merge_inj, fun _ => merge_eq_self_iff⟩
  case prompt =>
    obtain ⟨parts, hparts, rfl⟩ := segments_eq_ok_iff.1 h
    exact ⟨isMerged_merge parts, parts, hparts, foldl_push isMerged_nil parts⟩
  case result =>
    have hmerged := isMerged_merge pushed
    exact ⟨foldl_push isMerged_nil pushed, hmerged, marks_merge pushed, hmerged.merge_eq⟩

/-- Contents that are empty, so that control texts meet, and literal delimiters. -/
theorem merge_canonical_silent :
    ∃ merged,
      segments .gemma [.plain .system "", .plain .user "",
          (Message.plain .assistant "").withToolCalls [⟨"f", []⟩], .plain .tool "[\x7b\x7d]"] [] =
        .ok merged ∧
      IsMerged merged ∧
      merged = [control "<bos><start_of_turn>user\n", literal "\n",
        control ("<end_of_turn>\n<start_of_turn>model\nI understand.\n<end_of_turn>\n"
          ++ "<start_of_turn>user\n<end_of_turn>\n<start_of_turn>model\n"),
        literal "```tool_code\nf()\n```\n",
        control "<end_of_turn>\n<start_of_turn>user\n",
        literal "```tool_output\n\x7b\x7d\n```\n",
        control "\n<end_of_turn>\n<start_of_turn>model\n"] := by
  have hsegments : segments .gemma [.plain .system "", .plain .user "",
      (Message.plain .assistant "").withToolCalls [⟨"f", []⟩], .plain .tool "[\x7b\x7d]"] [] =
        .ok _ := rfl
  refine ⟨_, hsegments, (merge_canonical.1 _ _ _ _ hsegments).1, ?_⟩
  decide +kernel

end Prompt

end ChatRelay
