import ChatRelay.Proofs.Tools.Allowed

/-!
# Calls on the lines of a text

Expressions stand one on a line, and each line is read by itself (`callsIn_append`). It makes no
difference that the whole text is trimmed before it is cut into lines, that a line may end in a
carriage return, and that a string may hold characters that end a line elsewhere: the calls are those
on the lines of the text in their order (`callsIn_eq_lines`). So a line that is no call has no effect
on the others, and a text is refused if and only if none of its lines is a call.
-/

namespace ChatRelay.CallSyntax

open ExpressionSyntax

variable {w : Whitelist} {text : List Char}

/-- The call on a line, with blanks around it or not. -/
def callOn? (line : List Char) : Option ToolCall :=
  (readLine (Text.trim line)).toOption

theorem callOn?_eq_none {line : List Char} :
    callOn? line = none ↔ ∃ fault, readLine (Text.trim line) = .error fault := by
  rw [callOn?]
  cases readLine (Text.trim line) <;> simp [Except.toOption]

/-- A line without content is no call anyway. -/
theorem filterMap_readLine_filter (ls : List (List Char)) :
    (ls.filter (!·.isEmpty)).filterMap (fun line => (readLine line).toOption) =
      ls.filterMap fun line => (readLine line).toOption := by
  rw [List.filterMap_filter, List.filterMap_congr]
  intro line _
  cases line <;> rfl

/-- The calls of a text are those on its lines. -/
theorem callsIn_eq_lines (w : Whitelist) (text : List Char) :
    expression.callsIn w text = (Text.lines (Text.trim text)).filterMap callOn? := by
  rw [callsIn_expression, ← Text.contentLines_trim, Text.contentLines_eq_lines,
    filterMap_readLine_filter, List.filterMap_map]
  rfl

/-- A line feed keeps the calls on both sides of it apart. -/
theorem callsIn_append (w : Whitelist) (a b : List Char) :
    expression.callsIn w (a ++ '\n' :: b) =
      expression.callsIn w a ++ expression.callsIn w b := by
  simp only [callsIn_expression, Text.contentLines_append, List.filterMap_append]

/-- A text in one line holds the call on this line. -/
theorem callsIn_of_line (w : Whitelist) {line : List Char} (hline : '\n' ∉ line) :
    expression.callsIn w line = (callOn? line).toList := by
  rw [callsIn_expression, Text.contentLines_of_not_mem hline, filterMap_readLine_filter,
    callOn?, List.filterMap_cons, List.filterMap_nil]
  cases readLine (Text.trim line) <;> rfl

theorem refused_iff (w : Whitelist) (text : List Char) :
    (∃ e, expression.parse w text = .error e) ↔
      ∀ line ∈ Text.lines (Text.trim text), callOn? line = none := by
  simp only [parse_eq_error_iff, exists_and_left, exists_eq, and_true]
  rw [callsIn_eq_lines, List.filterMap_eq_nil_iff]

theorem allows_of_mem_callsIn {c : ToolCall} (h : c ∈ expression.callsIn w text)
    (w' : Whitelist) : w'.Allows c := by
  rw [callsIn_expression] at h
  obtain ⟨line, -, hcall⟩ := List.mem_filterMap.1 h
  exact (admits_of_readLine w' (ok_of_toOption hcall)).allowed

/-- Each line of a text is read by itself, whatever the whitelist. The calls of two texts with a line
feed between them are those of the one and then those of the other. A line that is no expression, or
cannot be bound, holds no call, and the calls around it are what they are without it. Every call that
is read may be made under any whitelist. And a text is refused if and only if there is no call on any
of its lines, with an error that carries the text as it was. -/
theorem callsIn_line_by_line (w : Whitelist) :
    (∀ a b, expression.callsIn w (a ++ '\n' :: b) =
      expression.callsIn w a ++ expression.callsIn w b) ∧
    (∀ line fault, '\n' ∉ line → readLine (Text.trim line) = .error fault →
      expression.callsIn w line = [] ∧
        ∀ a b, expression.callsIn w (a ++ '\n' :: (line ++ '\n' :: b)) =
          expression.callsIn w (a ++ '\n' :: b)) ∧
    (∀ text, ∀ c ∈ expression.callsIn w text, ∀ w' : Whitelist, w'.Allows c) ∧
    (∀ text, (∃ e, expression.parse w text = .error e) ↔
      ∀ line ∈ Text.lines (Text.trim text), ∃ fault, readLine (Text.trim line) = .error fault) ∧
    ∀ text e, expression.parse w text = .error e → e = ⟨String.ofList text⟩ := by
  refine ⟨callsIn_append w, ?_, ?_, ?_, ?_⟩
  · intro line fault hline hfault
    have hnone : expression.callsIn w line = [] := by
      rw [callsIn_of_line w hline, callOn?_eq_none.2 ⟨fault, hfault⟩]
      rfl
    refine ⟨hnone, ?_⟩
    intro a b
    rw [callsIn_append, callsIn_append, callsIn_append, hnone, List.nil_append]
  · intro text c hc w'
    exact allows_of_mem_callsIn hc w'
  · intro text
    simp only [refused_iff, callOn?_eq_none]
  · intro text e he
    exact (parse_eq_error_iff.1 he).2

/-- A call that lacks an argument. -/
def brokenLine : List Char := " getRecentChannelMessages(channelIndex=1) \r".toList

/-- A text with a call to the newest message of a channel. -/
def soundText : List Char := "getRecentChannelMessages(limit=1, channelIndex=7)\r".toList

theorem callsIn_line_by_line_broken :
    '\n' ∉ brokenLine ∧
      readLine (Text.trim brokenLine) =
        .error (.binding (.missing "getRecentChannelMessages" "limit")) ∧
      expression.callsIn ⟨[]⟩ (soundText ++ '\n' :: (brokenLine ++ '\n' :: soundText)) =
        expression.callsIn ⟨[]⟩ (soundText ++ '\n' :: soundText) ∧
      expression.callsIn ⟨[]⟩ soundText = [.newest 7 (by decide)] := by
  have hline : '\n' ∉ brokenLine := by decide +kernel
  have hfault : readLine (Text.trim brokenLine) =
      .error (.binding (.missing "getRecentChannelMessages" "limit")) := by decide +kernel
  obtain ⟨-, hbroken, -⟩ := callsIn_line_by_line ⟨[]⟩
  exact ⟨hline, hfault, (hbroken _ _ hline hfault).2 _ _, by decide +kernel⟩

end ChatRelay.CallSyntax
