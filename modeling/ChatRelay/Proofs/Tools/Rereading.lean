import ChatRelay.Proofs.Tools.Allowed
import ChatRelay.Proofs.Tools.JsonCalls

/-!
# What was read is read again

The text in which calls are handed on has each call's name before its arguments, and it is JSON: the
value that it stands for is the array of the values of the calls (`parse?_writeAll`). A call that was
read, from whichever syntax, has a name and arguments in order (`named_of_parse`), and may be made.
So whoever decodes that text gets the calls that were read, and so does whoever reads it once more as
what a model writes: nothing is dropped, moved or changed (`rereads_of_parse`).
-/

namespace ChatRelay

/-! ### The text in which calls are handed on -/

namespace JsonSyntax

open Json.Tree

variable {c : ToolCall}

/-- The record of a call states the value of the call. -/
theorem states_valueOf (h : c.Plain) :
    States json? ((Json.obj c.arguments).depth + 1) c.write (valueOf c) := by
  have hfloat : Json.FloatFreeMembers [("name", .str c.name), ("arguments", .obj c.arguments)] :=
    ⟨trivial, h.floatFree, trivial⟩
  have hstates := states_record hfloat ⟨trivial, h.ordered, trivial⟩
  rw [object_eq_valueOf] at hstates
  refine hstates.mono ?_
  simp only [Json.depthMembers, Json.depth]
  omega

/-- The text of calls is JSON, and its value is the array of theirs. -/
theorem parse?_writeAll {calls : List ToolCall} (h : ∀ c ∈ calls, c.Plain)
    (hd : ∀ c ∈ calls, (Json.obj c.arguments).depth ≤ 125) :
    Json.parse? (ToolCall.writeAll calls) = some (.arr (calls.map valueOf)) := by
  have hstates : ∀ c ∈ calls, States json? 126 c.write (valueOf c) := by
    intro c hc
    have := hd c hc
    exact (states_valueOf (h c hc)).mono (by omega)
  exact (states_list_map hstates).array.ofChars? (by decide)

end JsonSyntax

/-! ### What is read -/

/-- A call with a name, whose arguments are in order at every depth. -/
structure ToolCall.Named (c : ToolCall) : Prop where
  name : c.name ≠ ""
  ordered : (Json.obj c.arguments).Ordered

theorem CallExpr.IsName.ne_empty {s : String} (h : CallExpr.IsName s) : s ≠ "" := by
  obtain ⟨c, cs, hcs, -, -⟩ := h
  rintro rfl
  cases hcs

/-- A call on a line is to a built-in function. -/
theorem ExpressionSyntax.named_of_readLine {line : List Char} {c : ToolCall}
    (h : readLine line = .ok c) : c.Named := by
  have hadmits := admits_of_readLine ⟨[]⟩ h
  cases hs : Catalog.lookup? c.name with
  | none =>
    -- Where nothing is declared, only built-in functions may be called.
    have hallowed := hadmits.allowed
    rw [Whitelist.Allows, Whitelist.check, hs] at hallowed
    simp at hallowed
  | some s =>
    obtain ⟨hall, hname⟩ := Catalog.lookup?_eq_some hs
    refine ⟨?_, ToolCall.ordered_of_admits hadmits hs⟩
    rw [← hname]
    exact (Catalog.wellNamed hall).name.ne_empty

namespace CallSyntax

variable {w : Whitelist} {text : List Char} {calls : List ToolCall}

theorem named_of_parse (s : CallSyntax) (h : s.parse w text = .ok calls) :
    ∀ c ∈ calls, c.Named := by
  refine (s.forall_of_parse ?_ ?_ h).2
  · intro v c hv hc
    obtain ⟨hname, hordered⟩ :=
      JsonSyntax.ordered_callOf hv (JsonSyntax.callOf_of_allowedCallOf hc).2
    exact ⟨hname, hordered⟩
  · intro line c hc
    exact ExpressionSyntax.named_of_readLine hc

/-- Calls that were read, in whichever syntax, are decoded from the text in which they are handed on,
and are read from it once more: the same calls in the same order, if their arguments have no floats
and are not nested too deep. -/
theorem rereads_of_parse (s : CallSyntax) (h : s.parse w text = .ok calls)
    (hfloat : ∀ c ∈ calls, (Json.obj c.arguments).FloatFree)
    (hdepth : ∀ c ∈ calls, (Json.obj c.arguments).depth ≤ 125) :
    ToolCall.readAll? (ToolCall.writeAll calls) = some calls ∧
      json.parse w (ToolCall.writeAll calls) = .ok calls := by
  have hnamed := s.named_of_parse h
  obtain ⟨hne, hadmits⟩ := s.admits_of_parse h
  have hplain : ∀ c ∈ calls, c.Plain := fun c hc => ⟨hfloat c hc, (hnamed c hc).ordered⟩
  refine ⟨ToolCall.readAll?_writeAll hplain hdepth, ?_⟩
  apply JsonSyntax.parse_of_values
  · exact JsonSyntax.tight_arrayText _
  · exact JsonSyntax.parse?_writeAll hplain hdepth
  · exact hne
  · intro c hc
    exact (hadmits c hc).allowed
  · intro c hc
    exact (hnamed c hc).name

/-- A text with a call whose arguments are a string that holds an object, one that may not be made
and one without arguments. -/
def untidyText : List Char :=
  ("[\x7b\"arguments\":\"\x7b\\\"q\\\":[null,\\\"]\\\"],\\\"a\\\":-1\x7d\",\"name\":\"search\"\x7d,"
    ++ "\x7b\"name\":\"rm\"\x7d,\x7b\"name\":\"search\"\x7d]").toList

/-- The calls in it that may be made. -/
def untidyCalls : List ToolCall :=
  [⟨"search", [("a", .num (.int (-1) (by decide))), ("q", .arr [.null, .str "]"])]⟩, ⟨"search", []⟩]

theorem rereads_of_parse_untidy :
    json.parse ⟨["search"]⟩ untidyText = .ok untidyCalls ∧
      (∀ c ∈ untidyCalls, (Json.obj c.arguments).FloatFree) ∧
      (∀ c ∈ untidyCalls, (Json.obj c.arguments).depth ≤ 125) ∧
      ToolCall.readAll? (ToolCall.writeAll untidyCalls) = some untidyCalls ∧
      json.parse ⟨["search"]⟩ (ToolCall.writeAll untidyCalls) = .ok untidyCalls := by
  have hparse : json.parse ⟨["search"]⟩ untidyText = .ok untidyCalls := by decide +kernel
  have hfloat : ∀ c ∈ untidyCalls, (Json.obj c.arguments).FloatFree := by
    rw [untidyCalls, List.forall_mem_cons, List.forall_mem_singleton]
    simp [Json.FloatFree, Json.FloatFreeMembers, Json.FloatFreeItems]
  have hdepth : ∀ c ∈ untidyCalls, (Json.obj c.arguments).depth ≤ 125 := by decide
  exact ⟨hparse, hfloat, hdepth, rereads_of_parse json hparse hfloat hdepth⟩

end CallSyntax

end ChatRelay
