import ChatRelay.Tools.CallSyntax
import Mathlib

/-!
# The calls in a text

A text is cut into pieces, and each piece is read by itself. The calls in the text (`callsIn`) are
those that its pieces are read as: in the one syntax the lines (`callsIn_expression`), in the other
the values, as far as they state calls that are allowed (`callsIn_json`). A text in which there are
calls is read as these, and any other is refused (`parse_eq_ok_iff`, `parse_eq_error_iff`).
-/

namespace ChatRelay

/-- Those of the calls that are allowed. -/
def Whitelist.allowed (w : Whitelist) (calls : List ToolCall) : List ToolCall :=
  calls.filter (w.Allows ·)

theorem Whitelist.allowed_of_forall {w : Whitelist} {calls : List ToolCall}
    (h : ∀ c ∈ calls, w.Allows c) : w.allowed calls = calls :=
  List.filter_eq_self.2 fun c hc => decide_eq_true (h c hc)

namespace JsonSyntax

variable {w : Whitelist} {v : Json} {c : ToolCall}

/-- A value is read as the call that it states, if that is allowed. -/
theorem toOption_allowedCallOf (h : callOf v = .ok c) :
    (allowedCallOf w v).toOption = Option.guard (w.Allows ·) c := by
  rw [allowedCallOf, h]
  by_cases hw : w.Allows c
  · have hcheck : w.check c = .ok () := hw
    simp [bind, Except.bind, hcheck, hw, Except.toOption]
  · cases hcheck : w.check c with
    | ok u => exact absurd hcheck hw
    | error e => simp [bind, Except.bind, hcheck, hw, Except.toOption, Option.guard]

end JsonSyntax

namespace CallSyntax

/-- The calls that are read from a text; none if the text is refused. -/
def callsIn (s : CallSyntax) (w : Whitelist) (text : List Char) : List ToolCall :=
  match s.parse w text with
  | .ok calls => calls
  | .error _ => []

variable {s : CallSyntax} {w : Whitelist} {text : List Char}

theorem callsIn_eq (s : CallSyntax) (w : Whitelist) (text : List Char) :
    s.callsIn w text = (s.readings w text).filterMap call? := by
  rw [callsIn, parse]
  cases (s.readings w text).filterMap call? <;> rfl

/-- A text is read as the calls in it, if there are any. -/
theorem parse_eq_ok_iff {calls : List ToolCall} :
    s.parse w text = .ok calls ↔ s.callsIn w text = calls ∧ calls ≠ [] := by
  rw [callsIn_eq, parse]
  cases (s.readings w text).filterMap call? with
  | nil => simp
  | cons c calls' =>
    simp only [Except.ok.injEq, iff_self_and]
    rintro rfl
    exact List.cons_ne_nil c calls'

/-- A text is refused if there is no call in it, and the error carries all of it. -/
theorem parse_eq_error_iff {e : NoCall} :
    s.parse w text = .error e ↔ s.callsIn w text = [] ∧ e = ⟨String.ofList text⟩ := by
  rw [callsIn_eq, parse]
  cases (s.readings w text).filterMap call? with
  | nil => simp [eq_comm]
  | cons c calls => simp

theorem call?_mapError {ε : Type} (f : ε → Notice) (r : Except ε ToolCall) :
    call? (r.mapError f) = r.toOption := by
  cases r <;> rfl

theorem callsIn_expression (w : Whitelist) (text : List Char) :
    expression.callsIn w text =
      (Text.contentLines text).filterMap
        fun line => (ExpressionSyntax.readLine line).toOption := by
  rw [callsIn_eq, readings, ExpressionSyntax.readLines, List.map_map, List.filterMap_map]
  exact List.filterMap_congr fun line _ => call?_mapError _ _

theorem callsIn_json (w : Whitelist) (text : List Char) :
    json.callsIn w text =
      (JsonSyntax.candidates text).filterMap
        fun r => (r.bind (JsonSyntax.allowedCallOf w)).toOption := by
  rw [callsIn_eq, readings, JsonSyntax.readAll, List.map_map, List.filterMap_map]
  exact List.filterMap_congr fun r _ => call?_mapError _ _

/-- Of calls that are stated by the pieces of a text, those are in it that are allowed. -/
theorem callsIn_of_candidates {β : Type} {bs : List β} {value : β → Json} {call : β → ToolCall}
    (h : JsonSyntax.candidates text = bs.map fun b => .ok (value b))
    (hcall : ∀ b ∈ bs, JsonSyntax.callOf (value b) = .ok (call b)) :
    json.callsIn w text = w.allowed (bs.map call) := by
  rw [callsIn_json, h, Whitelist.allowed, ← List.filterMap_eq_filter, List.filterMap_map,
    List.filterMap_map]
  exact List.filterMap_congr fun b hb => JsonSyntax.toOption_allowedCallOf (hcall b hb)

/-- If all of them are allowed, they are what is read. -/
theorem parse_of_candidates {β : Type} {bs : List β} {value : β → Json} {call : β → ToolCall}
    (h : JsonSyntax.candidates text = bs.map fun b => .ok (value b))
    (hcall : ∀ b ∈ bs, JsonSyntax.callOf (value b) = .ok (call b)) (hne : bs ≠ [])
    (hw : ∀ b ∈ bs, w.Allows (call b)) : json.parse w text = .ok (bs.map call) := by
  refine parse_eq_ok_iff.2 ⟨?_, by simpa using hne⟩
  rw [callsIn_of_candidates h hcall, Whitelist.allowed_of_forall (List.forall_mem_map.2 hw)]

end CallSyntax

end ChatRelay
