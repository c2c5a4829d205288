import ChatRelay.Proofs.Json.Values
import ChatRelay.Proofs.Tools.JsonCalls

/-!
# One batch of calls, written in many ways

Calls can be stated by objects in an array, or by one object on a line. Each object may have its
members in either order, and may hold the arguments as an object, as a string in which the object is
written, or, if there are none, as null or not at all (`Spelling`). All of this makes no difference:
what is read are the calls that are allowed, in their order (`parse_batch`). The two layouts are cut
into pieces in different ways. An array, or an object alone on its line, is one value. Where there is
a second object the text as a whole is no JSON, and only then are its lines read
(`candidates_column`).
-/

namespace ChatRelay

/-- A call with a name, whose arguments have no floats and are not nested too deep to be read. -/
structure ToolCall.Readable (c : ToolCall) : Prop where
  name : c.name ≠ ""
  plain : c.Plain
  depth : (Json.obj c.arguments).depth ≤ 125

namespace JsonSyntax

/-! ### Arguments -/

/-- How the arguments of a call may be written: the member that holds them, if there is one. -/
inductive Written (arguments : List (String × Json)) : List (String × Json) → Prop
  | object : Written arguments [("arguments", .obj arguments)]
  | text : Written arguments [("arguments", .str (Json.obj arguments).compact)]
  | null (h : arguments = []) : Written arguments [("arguments", .null)]
  | missing (h : arguments = []) : Written arguments []

variable {c : ToolCall} {argument : List (String × Json)}

theorem Written.nodup_keys (h : Written c.arguments argument) (name : Json) :
    ((("name", name) :: argument).map (·.1)).Nodup := by
  cases h <;> simp

/-- However they are written, the arguments are read. -/
theorem Written.argumentsOf_lookup (h : Written c.arguments argument) (hc : c.Readable) :
    argumentsOf c.name (argument.lookup "arguments") = .ok c.arguments := by
  cases h with
  | object => rfl
  | text =>
    have hread : Json.parse? (Json.obj c.arguments).compact.toList = some (.obj c.arguments) := by
      rw [Json.compact, String.toList_ofList]
      refine Json.parse?_write hc.plain.floatFree hc.plain.ordered ?_
      exact Nat.lt_of_le_of_lt hc.depth (by decide)
    rw [Json.lookup_cons_self, argumentsOf, hread]
  | null h =>
    rw [h]
    rfl
  | missing h =>
    rw [h]
    rfl

/-- The member that holds the arguments is no more difficult to read than they are. -/
theorem Written.plain (h : Written c.arguments argument) (hc : c.Readable) :
    ∀ m ∈ argument, m.2.FloatFree ∧ m.2.Ordered ∧ m.2.depth ≤ 125 := by
  cases h with
  | object => exact List.forall_mem_singleton.2 ⟨hc.plain.floatFree, hc.plain.ordered, hc.depth⟩
  | text => exact List.forall_mem_singleton.2 ⟨trivial, trivial, Nat.zero_le _⟩
  | null _ => exact List.forall_mem_singleton.2 ⟨trivial, trivial, Nat.zero_le _⟩
  | missing _ => exact nofun

/-! ### Objects -/

/-- A call and the members of an object that states it, in the order in which they are written. -/
structure Spelling where
  call : ToolCall
  members : List (String × Json)
  written : ∃ argument, Written call.arguments argument ∧
    members.Perm (("name", .str call.name) :: argument)

namespace Spelling

/-- The object in compact form. -/
def text (x : Spelling) : List Char :=
  Json.write (.obj x.members)

/-- The value that the object is read as. -/
def value (x : Spelling) : Json :=
  Json.object x.members

variable {x : Spelling}

theorem brace_mem_text (x : Spelling) : '\x7b' ∈ x.text := by
  rw [text, Json.write]
  exact List.mem_cons_self ..

theorem tight_text (x : Spelling) : Text.Tight x.text := tight_write_obj x.members

/-- The call is read from its object. -/
theorem callOf_value (hx : x.call.Readable) : callOf x.value = .ok x.call := by
  obtain ⟨argument, hwritten, hperm⟩ := x.written
  have hnodup := hwritten.nodup_keys (.str x.call.name)
  have hmembers : Json.ofMembers x.members =
      Json.ofMembers (("name", .str x.call.name) :: argument) :=
    Json.ofMembers_eq_of_perm ((hperm.map _).nodup_iff.2 hnodup) hperm
  have hlookup := Json.lookup_ofMembers hnodup
  rw [value, Json.object, callOf, hmembers, hlookup, hlookup, Json.lookup_cons_self,
    Json.lookup_cons_of_ne (by decide)]
  simp only [hx.name, if_false, hwritten.argumentsOf_lookup hx, Except.map]

/-- The text states the object, one level further in than the arguments. -/
theorem states_text (hx : x.call.Readable) :
    Json.Tree.States Json.Tree.json? 126 x.text x.value := by
  obtain ⟨argument, hwritten, hperm⟩ := x.written
  have hplain : ∀ m ∈ x.members, m.2.FloatFree ∧ m.2.Ordered ∧ m.2.depth ≤ 125 := by
    intro m hm
    rcases List.mem_cons.1 (hperm.mem_iff.1 hm) with rfl | hm
    · exact ⟨trivial, trivial, Nat.zero_le _⟩
    · exact hwritten.plain hx m hm
  have hdepth : Json.depthMembers x.members ≤ 125 :=
    Json.depthMembers_le_iff.2 fun m hm => (hplain m hm).2.2
  rw [text, Json.write_obj]
  refine (Json.Tree.states_record ?_ ?_).mono (Nat.succ_le_succ hdepth)
  · exact Json.floatFreeMembers_iff.2 fun m hm => (hplain m hm).1
  · exact Json.orderedMembers_iff.2 fun m hm => (hplain m hm).2.1

theorem parse?_text (hx : x.call.Readable) : Json.parse? x.text = some x.value :=
  (states_text hx).ofChars? (by decide)

end Spelling

/-! ### Batches -/

variable {batch : List Spelling} {column : List Char}

theorem candidates_array (hbatch : ∀ x ∈ batch, x.call.Readable) :
    candidates (Json.arrayText (batch.map (·.text))) = batch.map fun x => .ok x.value := by
  have hread : Json.parse? (Json.arrayText (batch.map (·.text))) =
      some (.arr (batch.map (·.value))) :=
    (Json.Tree.states_list_map fun x hx => Spelling.states_text (hbatch x hx)).array.ofChars?
      (by decide)
  rw [candidates_of_items (tight_arrayText _) hread]
  exact List.map_map

/-- Where there is something below the first object, the whole is no JSON. -/
theorem parse?_column {x y : Spelling}
    (h : Text.Column (x.text :: y.text :: batch.map (·.text)) column) :
    Json.parse? (Text.trim column) = none := by
  cases h with
  | @more before _ after rest _ hbefore _ hrest =>
    have hbrace : '\x7b' ∈ after ++ '\n' :: rest := by
      have := hrest.mem (List.mem_cons_self ..) y.brace_mem_text
      simp [this]
    have htrim : Text.trim (before ++ x.text ++ after ++ '\n' :: rest) =
        x.text ++ Text.trimEnd (after ++ '\n' :: rest) := by
      rw [List.append_assoc, List.append_assoc, Text.trim_blanks_append hbefore]
      exact Text.trim_append_more x.tight_text (List.ne_nil_of_mem x.brace_mem_text) _
    rw [htrim]
    exact Json.parse?_write_obj_append x.members (Text.mem_trimEnd hbrace (by decide)) (by decide)

/-- A column is cut into its lines, unless it is one object and therefore a value. -/
theorem candidates_column (hbatch : ∀ x ∈ batch, x.call.Readable)
    (h : Text.Column (batch.map (·.text)) column) :
    candidates column = batch.map fun x => .ok x.value := by
  match batch with
  | [] => exact absurd h Text.not_column_nil
  | [x] =>
    obtain hx := List.forall_mem_singleton.1 hbatch
    cases h with
    | last hbefore hafter =>
      rw [candidates, Text.trim_append hbefore hafter x.tight_text, Spelling.parse?_text hx]
      rfl
    | more _ _ hrest => exact absurd hrest Text.not_column_nil
  | x :: y :: batch =>
    have hlines : Text.contentLines column = (x :: y :: batch).map (·.text) := by
      refine Text.contentLines_column h (List.forall_mem_map.2 fun z _ => ?_)
      exact ⟨Json.newline_not_mem_write _, z.tight_text, List.ne_nil_of_mem z.brace_mem_text⟩
    rw [candidates, parse?_column h, hlines, List.map_map]
    refine List.map_congr_left fun z hz => ?_
    simp only [Function.comp_apply, Spelling.parse?_text (hbatch z hz)]

/-- However the calls of a batch are spelled, and whether they stand in an array or in a column, those
that are allowed are read, in their order; and if none is, the text is refused, with an error that
carries all of it. -/
theorem parse_batch (w : Whitelist) (hbatch : ∀ x ∈ batch, x.call.Readable) :
    let calls := w.allowed (batch.map (·.call))
    let array := Json.arrayText (batch.map (·.text))
    (calls ≠ [] → CallSyntax.json.parse w array = .ok calls ∧
      ∀ column, Text.Column (batch.map (·.text)) column →
        CallSyntax.json.parse w column = .ok calls) ∧
    (calls = [] → CallSyntax.json.parse w array = .error ⟨String.ofList array⟩ ∧
      ∀ column, Text.Column (batch.map (·.text)) column →
        CallSyntax.json.parse w column = .error ⟨String.ofList column⟩) := by
  intro calls array
  have hstated : ∀ x ∈ batch, callOf x.value = .ok x.call :=
    fun x hx => Spelling.callOf_value (hbatch x hx)
  have harray : CallSyntax.json.callsIn w array = calls :=
    CallSyntax.callsIn_of_candidates (candidates_array hbatch) hstated
  have hcolumn : ∀ column, Text.Column (batch.map (·.text)) column →
      CallSyntax.json.callsIn w column = calls :=
    fun column h => CallSyntax.callsIn_of_candidates (candidates_column hbatch h) hstated
  constructor
  · intro hcalls
    refine ⟨CallSyntax.parse_eq_ok_iff.2 ⟨harray, hcalls⟩, fun column h => ?_⟩
    exact CallSyntax.parse_eq_ok_iff.2 ⟨hcolumn column h, hcalls⟩
  · intro hnone
    refine ⟨CallSyntax.parse_eq_error_iff.2 ⟨harray.trans hnone, rfl⟩, fun column h => ?_⟩
    exact CallSyntax.parse_eq_error_iff.2 ⟨(hcolumn column h).trans hnone, rfl⟩

/-- A call with its arguments as an object. -/
def asObject : Spelling :=
  ⟨⟨"search", [("q", .str "\n")]⟩, [("name", .str "search"), ("arguments", .obj [("q", .str "\n")])],
    _, .object, .refl _⟩

/-- A call with its arguments as a string, before the name. -/
def asText : Spelling :=
  ⟨⟨"search", [("a", .bool true), ("b", .arr [.null])]⟩,
    [("arguments", .str "\x7b\"a\":true,\"b\":[null]\x7d"), ("name", .str "search")],
    _, .text, .swap ..⟩

/-- A call with null for its arguments. -/
def asNull : Spelling :=
  ⟨⟨"rm", []⟩, [("name", .str "rm"), ("arguments", .null)], _, .null rfl, .refl _⟩

/-- A call of which there is only the name. -/
def bare : Spelling :=
  ⟨⟨"search", []⟩, [("name", .str "search")], _, .missing rfl, .refl _⟩

/-- These calls below each other, with blank lines before and after the first. -/
def mixedColumn : List Char :=
  ['\n'] ++ asObject.text ++ ['\r', '\n', '\u3000'] ++ '\n' ::
    ([' '] ++ asText.text ++ ['\t'] ++ '\n' ::
      ([] ++ asNull.text ++ [] ++ '\n' :: ([] ++ bare.text ++ ['\n'])))

theorem parse_batch_mixed :
    (∀ x ∈ [asObject, asText, asNull, bare], x.call.Readable) ∧
      Text.Column ([asObject, asText, asNull, bare].map (·.text)) mixedColumn ∧
      CallSyntax.json.parse ⟨["search"]⟩ mixedColumn =
        .ok [asObject.call, asText.call, bare.call] ∧
      CallSyntax.json.parse ⟨["search"]⟩
          (Json.arrayText ([asObject, asText, asNull, bare].map (·.text))) =
        .ok [asObject.call, asText.call, bare.call] ∧
      CallSyntax.json.parse ⟨[]⟩ mixedColumn = .error ⟨String.ofList mixedColumn⟩ := by
  have hbatch : ∀ x ∈ [asObject, asText, asNull, bare], x.call.Readable := by
    simp only [List.forall_mem_cons, List.not_mem_nil, false_imp_iff, implies_true, and_true]
    refine ⟨⟨by decide, ⟨?_, ?_⟩, by decide⟩, ⟨by decide, ⟨?_, ?_⟩, by decide⟩,
      ⟨by decide, ⟨?_, ?_⟩, by decide⟩, ⟨by decide, ⟨?_, ?_⟩, by decide⟩⟩ <;>
    simp [asObject, asText, asNull, bare, Json.FloatFree, Json.FloatFreeMembers,
      Json.FloatFreeItems, Json.Ordered, Json.OrderedMembers, Json.OrderedItems] <;>
    decide
  have hcolumn : Text.Column ([asObject, asText, asNull, bare].map (·.text)) mixedColumn := by
    unfold mixedColumn
    refine .more ?_ ?_ (.more ?_ ?_ (.more ?_ ?_ (.last ?_ ?_))) <;>
    exact List.all_eq_true.1 (by decide)
  have hcalls : Whitelist.allowed ⟨["search"]⟩ ([asObject, asText, asNull, bare].map (·.call)) =
      [asObject.call, asText.call, bare.call] := by decide
  have hnone : Whitelist.allowed ⟨[]⟩ ([asObject, asText, asNull, bare].map (·.call)) = [] := by
    decide
  obtain ⟨hread, -⟩ := parse_batch ⟨["search"]⟩ hbatch
  rw [hcalls] at hread
  obtain ⟨harray, hlines⟩ := hread (List.cons_ne_nil _ _)
  obtain ⟨-, hrefused⟩ := parse_batch ⟨[]⟩ hbatch
  exact ⟨hbatch, hcolumn, hlines _ hcolumn, harray, (hrefused hnone).2 _ hcolumn⟩

end JsonSyntax

end ChatRelay
