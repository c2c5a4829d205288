import ChatRelay.Text.Blank
import Mathlib

/-!
# Trimmed texts and their lines

A text that starts and ends with something other than a blank is what is left when blanks around it
are trimmed (`trim_append`), it is kept in front of anything else (`trim_append_more`), and if it has
no line feed in it, it is its own and only line (`contentLines_of_line`). A line feed keeps what is on
both sides of it apart (`contentLines_append`), so a text may be trimmed before it is cut into lines
(`contentLines_trim`). `lines` are the lines of a text as they are, a text is cut into them one by one
(`lines_cons`), and its content is what they are without the blanks around them
(`contentLines_eq_lines`).
-/

namespace ChatRelay.Text

/-- A text without blanks at its ends. -/
structure Tight (cs : List Char) : Prop where
  head : ∀ c ∈ cs.head?, isBlank c = false
  last : ∀ c ∈ cs.getLast?, isBlank c = false

variable {before cs after : List Char}

theorem trimStart_cons {c : Char} (h : isBlank c = false) : trimStart (c :: cs) = c :: cs :=
  List.dropWhile_cons_of_neg (by simp [h])

theorem trimStart_of_head (h : ∀ c ∈ cs.head?, isBlank c = false) : trimStart cs = cs := by
  cases cs with
  | nil => rfl
  | cons c cs => exact trimStart_cons (h c rfl)

theorem trimStart_append (hbefore : ∀ c ∈ before, isBlank c = true)
    (h : ∀ c ∈ cs.head?, isBlank c = false) : trimStart (before ++ cs) = cs := by
  rw [trimStart, List.dropWhile_append_of_pos hbefore]
  exact trimStart_of_head h

/-- Nothing is taken off before the end of a text that ends with more than a blank. -/
theorem trimEnd_append (h : ∀ c ∈ cs.getLast?, isBlank c = false) (more : List Char) :
    trimEnd (cs ++ more) = cs ++ trimEnd more := by
  have hkeep : cs.reverse.dropWhile isBlank = cs.reverse :=
    trimStart_of_head (by simpa using h)
  rw [trimEnd, List.reverse_append, List.dropWhile_append]
  split
  · next hnil =>
    rw [trimEnd, List.isEmpty_iff.1 hnil, hkeep, List.reverse_reverse, List.reverse_nil,
      List.append_nil]
  · rw [List.reverse_append, List.reverse_reverse, trimEnd]

/-- What is no blank is not taken off. -/
theorem mem_trimEnd {c : Char} (hmem : c ∈ cs) (hc : isBlank c = false) : c ∈ trimEnd cs := by
  have hsplit := List.takeWhile_append_dropWhile (p := isBlank) (l := cs.reverse)
  rw [← List.mem_reverse, ← hsplit, List.mem_append] at hmem
  rcases hmem with hblank | hmem
  · have := List.mem_takeWhile_imp hblank
    rw [hc] at this
    cases this
  · exact List.mem_reverse.2 hmem

/-- Blanks before a text do not count when it is trimmed. -/
theorem trim_blanks_append (hbefore : ∀ c ∈ before, isBlank c = true) :
    trim (before ++ cs) = trim cs := by
  rw [trim, trimStart, List.dropWhile_append_of_pos hbefore]
  rfl

/-- Neither do blanks after it. -/
theorem trim_append_blanks (hafter : ∀ c ∈ after, isBlank c = true) :
    trim (cs ++ after) = trim cs := by
  have hend : ∀ ds, trimEnd (ds ++ after) = trimEnd ds := by
    intro ds
    rw [trimEnd, List.reverse_append, List.dropWhile_append_of_pos (by simpa using hafter)]
    rfl
  rw [trim, trimStart, List.dropWhile_append]
  split
  · next hnil =>
    rw [List.isEmpty_iff] at hnil
    rw [List.dropWhile_eq_nil_iff.2 hafter, trim, trimStart, hnil]
  · exact hend _

/-- A text that starts with more than a blank loses nothing but what is taken off its end. -/
theorem trim_append_more (h : Tight cs) (hne : cs ≠ []) (more : List Char) :
    trim (cs ++ more) = cs ++ trimEnd more := by
  have hhead : ∀ c ∈ (cs ++ more).head?, isBlank c = false := by
    rw [List.head?_append_of_ne_nil cs hne]
    exact h.head
  rw [trim, trimStart_of_head hhead, trimEnd_append h.last]

theorem trim_of_tight (h : Tight cs) : trim cs = cs := by
  by_cases hne : cs = []
  · subst hne
    rfl
  · have htrim := trim_append_more h hne []
    rwa [List.append_nil, show trimEnd [] = [] from rfl, List.append_nil] at htrim

/-- Trimming takes off the blanks around a text, and nothing of it. -/
theorem trim_append (hbefore : ∀ c ∈ before, isBlank c = true)
    (hafter : ∀ c ∈ after, isBlank c = true) (h : Tight cs) :
    trim (before ++ cs ++ after) = cs := by
  rw [trim_append_blanks hafter, trim_blanks_append hbefore, trim_of_tight h]

/-- A text is what is left when it is trimmed, with blanks around. -/
theorem exists_trim (cs : List Char) : ∃ before after : List Char,
    (∀ c ∈ before, isBlank c = true) ∧ (∀ c ∈ after, isBlank c = true) ∧
      cs = before ++ trim cs ++ after := by
  have hend : ∀ ds : List Char, ∃ after : List Char,
      (∀ c ∈ after, isBlank c = true) ∧ ds = trimEnd ds ++ after := by
    intro ds
    refine ⟨(ds.reverse.takeWhile isBlank).reverse, ?_, ?_⟩
    · intro c hc
      exact List.mem_takeWhile_imp (List.mem_reverse.1 hc)
    · rw [trimEnd, ← List.reverse_append, List.takeWhile_append_dropWhile, List.reverse_reverse]
  obtain ⟨after, hafter, heq⟩ := hend (trimStart cs)
  refine ⟨cs.takeWhile isBlank, after, fun c hc => List.mem_takeWhile_imp hc, hafter, ?_⟩
  rw [trim, List.append_assoc, ← heq, trimStart, List.takeWhile_append_dropWhile]

/-! ### Lines with more than blanks -/

/-- What holds of a single line, and of a line and a text behind it if it holds of that text, holds
of all texts. -/
theorem lines_induction {P : List Char → Prop} (line : ∀ cs, '\n' ∉ cs → P cs)
    (more : ∀ cs rest, '\n' ∉ cs → P rest → P (cs ++ '\n' :: rest)) (cs : List Char) : P cs := by
  induction hn : cs.length using Nat.strong_induction_on generalizing cs with
  | _ n ih =>
    by_cases hmem : '\n' ∈ cs
    · obtain ⟨first, rest, rfl, hfirst⟩ := List.eq_append_cons_of_mem hmem
      refine more first rest hfirst (ih rest.length ?_ rest rfl)
      rw [← hn, List.length_append, List.length_cons]
      omega
    · exact line cs hmem

/-- The lines on both sides of a line feed have nothing to do with each other. -/
theorem contentLines_append (cs ds : List Char) :
    contentLines (cs ++ '\n' :: ds) = contentLines cs ++ contentLines ds := by
  rw [contentLines, List.splitOn_append_cons_self, List.map_append, List.filter_append]
  rfl

theorem contentLines_nil : contentLines [] = [] := rfl

/-- The content of a single line is what is left of it when it is trimmed. -/
theorem contentLines_of_not_mem (hline : '\n' ∉ cs) :
    contentLines cs = [trim cs].filter (!·.isEmpty) := by
  rw [contentLines, List.splitOn_eq_singleton hline, List.map_singleton]

/-- A text in one line is its own and only line. -/
theorem contentLines_of_line (hline : '\n' ∉ cs) (h : Tight cs) (hne : cs ≠ []) :
    contentLines cs = [cs] := by
  rw [contentLines_of_not_mem hline, trim_of_tight h,
    List.filter_cons_of_pos (by simpa using hne), List.filter_nil]

/-- A blank before a text is no content. -/
theorem contentLines_blank_cons {c : Char} (hc : isBlank c = true) (cs : List Char) :
    contentLines (c :: cs) = contentLines cs := by
  by_cases hfeed : c = '\n'
  · subst hfeed
    exact contentLines_append [] cs
  · have hline : ∀ ds, '\n' ∉ ds → contentLines (c :: ds) = contentLines ds := by
      intro ds hds
      have htrim : trim ([c] ++ ds) = trim ds := trim_blanks_append (by simpa using hc)
      rw [contentLines_of_not_mem hds, ← htrim]
      exact contentLines_of_not_mem (by simp [hds, Ne.symm hfeed])
    induction cs using lines_induction with
    | line cs hcs => exact hline cs hcs
    | more cs rest hcs _ =>
      rw [← List.cons_append, contentLines_append, contentLines_append, hline cs hcs]

/-- A blank after a text is no content. -/
theorem contentLines_concat_blank {c : Char} (hc : isBlank c = true) (cs : List Char) :
    contentLines (cs ++ [c]) = contentLines cs := by
  by_cases hfeed : c = '\n'
  · subst hfeed
    rw [contentLines_append, contentLines_nil, List.append_nil]
  · induction cs using lines_induction with
    | line cs hcs =>
      have htrim : trim (cs ++ [c]) = trim cs := trim_append_blanks (by simpa using hc)
      rw [contentLines_of_not_mem hcs, ← htrim]
      exact contentLines_of_not_mem (by simp [hcs, Ne.symm hfeed])
    | more cs rest _ ih =>
      rw [List.append_assoc, List.cons_append, contentLines_append, contentLines_append, ih]

theorem contentLines_blanks_append (hbefore : ∀ c ∈ before, isBlank c = true) :
    contentLines (before ++ cs) = contentLines cs := by
  induction before with
  | nil => rfl
  | cons c before ih =>
    obtain ⟨hc, hrest⟩ := List.forall_mem_cons.1 hbefore
    rw [List.cons_append, contentLines_blank_cons hc, ih hrest]

theorem contentLines_append_blanks (hafter : ∀ c ∈ after, isBlank c = true) :
    contentLines (cs ++ after) = contentLines cs := by
  induction after generalizing cs with
  | nil => rw [List.append_nil]
  | cons c after ih =>
    obtain ⟨hc, hrest⟩ := List.forall_mem_cons.1 hafter
    rw [← List.singleton_append, ← List.append_assoc, ih hrest, contentLines_concat_blank hc]

/-- Blanks around a text are no content, whether they are on its lines or are lines themselves. -/
theorem contentLines_trim (cs : List Char) : contentLines (trim cs) = contentLines cs := by
  obtain ⟨before, after, hbefore, hafter, heq⟩ := exists_trim cs
  rw [heq, contentLines_append_blanks hafter, contentLines_blanks_append hbefore, ← heq]

/-! ### One text on a line -/

/-- Texts one below the other: each on a line of its own, with any blanks around it, among which there
may be whole lines. -/
inductive Column : List (List Char) → List Char → Prop
  | last {before text after : List Char} (hbefore : ∀ c ∈ before, isBlank c = true)
      (hafter : ∀ c ∈ after, isBlank c = true) : Column [text] (before ++ text ++ after)
  | more {before text after rest : List Char} {texts : List (List Char)}
      (hbefore : ∀ c ∈ before, isBlank c = true) (hafter : ∀ c ∈ after, isBlank c = true)
      (hrest : Column texts rest) :
      Column (text :: texts) (before ++ text ++ after ++ '\n' :: rest)

variable {texts : List (List Char)} {column : List Char}

theorem not_column_nil : ¬ Column [] column := nofun

/-- What stands in one of the texts stands in the column. -/
theorem Column.mem {c : Char} {text : List Char} (h : Column texts column) (htext : text ∈ texts)
    (hc : c ∈ text) : c ∈ column := by
  induction h with
  | last _ _ =>
    obtain rfl := List.mem_singleton.1 htext
    simp [hc]
  | more _ _ _ ih =>
    rcases List.mem_cons.1 htext with rfl | htext
    · simp [hc]
    · simp [ih htext]

/-- The content of a column are the texts. -/
theorem contentLines_column (h : Column texts column)
    (htexts : ∀ text ∈ texts, '\n' ∉ text ∧ Tight text ∧ text ≠ []) :
    contentLines column = texts := by
  induction h with
  | last hbefore hafter =>
    obtain ⟨hline, htight, hne⟩ := List.forall_mem_singleton.1 htexts
    rw [contentLines_append_blanks hafter, contentLines_blanks_append hbefore,
      contentLines_of_line hline htight hne]
  | more hbefore hafter _ ih =>
    obtain ⟨⟨hline, htight, hne⟩, hrest⟩ := List.forall_mem_cons.1 htexts
    rw [contentLines_append, contentLines_append_blanks hafter, contentLines_blanks_append hbefore,
      contentLines_of_line hline htight hne, ih hrest]
    rfl

/-! ### Lines as they are -/

/-- What stands in a joined text stands in the separator or in one of the parts. -/
theorem mem_of_mem_intercalate {c : Char} {separator : List Char} {parts : List (List Char)}
    (h : c ∈ separator.intercalate parts) : c ∈ separator ∨ ∃ part ∈ parts, c ∈ part := by
  induction parts with
  | nil => simp at h
  | cons part parts ih =>
    cases parts with
    | nil => exact .inr ⟨part, List.mem_cons_self .., by simpa using h⟩
    | cons next parts =>
      rw [List.intercalate_cons_cons, List.mem_append, List.mem_append] at h
      rcases h with (h | h) | h
      · exact .inr ⟨part, List.mem_cons_self .., h⟩
      · exact .inl h
      · exact (ih h).imp_right fun ⟨p, hp, hc⟩ => ⟨p, List.mem_cons_of_mem _ hp, hc⟩

/-- A line without the carriage return at its end, if there is one. -/
def withoutReturn (cs : List Char) : List Char :=
  if cs.getLast? = some '\r' then cs.dropLast else cs

/-- The lines of a text. Each ends at a line feed or at a carriage return and a line feed, and what
comes after the last line feed is a line only if there is something. -/
def lines (cs : List Char) : List (List Char) :=
  let parts := cs.splitOn '\n'
  parts.dropLast.map withoutReturn ++ (parts.getLast?.toList.filter (!·.isEmpty))

theorem withoutReturn_of_ne (h : cs.getLast? ≠ some '\r') : withoutReturn cs = cs := if_neg h

/-- What comes before the first line feed is the first line. -/
theorem lines_cons (hline : '\n' ∉ cs) (more : List Char) :
    lines (cs ++ '\n' :: more) = withoutReturn cs :: lines more := by
  have hne : more.splitOn '\n' ≠ [] := List.splitOn_ne_nil '\n' more
  have hparts : (cs ++ '\n' :: more).splitOn '\n' = cs :: more.splitOn '\n' := by
    rw [List.splitOn_append_cons_self, List.splitOn_eq_singleton hline]
    rfl
  rw [lines, hparts]
  simp only [List.dropLast_cons_of_ne_nil hne, List.getLast?_cons_of_ne_nil hne, List.map_cons]
  rfl

theorem lines_of_not_mem (hline : '\n' ∉ cs) : lines cs = [cs].filter (!·.isEmpty) := by
  rw [lines, List.splitOn_eq_singleton hline]
  rfl

theorem trim_withoutReturn (cs : List Char) : trim (withoutReturn cs) = trim cs := by
  rw [withoutReturn]
  split
  · next hlast =>
    obtain ⟨front, rfl⟩ := List.getLast?_eq_some_iff.1 hlast
    have hreturn : ∀ c ∈ ['\r'], isBlank c = true := List.forall_mem_singleton.2 (by decide)
    rw [List.dropLast_concat, trim_append_blanks hreturn]
  · rfl

/-- The content of a text stands on its lines, with blanks around it. -/
theorem contentLines_eq_lines (cs : List Char) :
    contentLines cs = ((lines cs).map trim).filter (!·.isEmpty) := by
  induction cs using lines_induction with
  | line cs hcs =>
    rw [contentLines_of_not_mem hcs, lines_of_not_mem hcs]
    cases cs with
    | nil => rfl
    | cons c cs => rfl
  | more cs rest hcs ih =>
    rw [contentLines_append, contentLines_of_not_mem hcs, lines_cons hcs, List.map_cons, ih,
      trim_withoutReturn, List.filter_cons, List.filter_cons]
    split <;> rfl

end ChatRelay.Text
