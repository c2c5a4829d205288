import ChatRelay.Proofs.Json.RoundTrip
import ChatRelay.Proofs.Text.Lines
import ChatRelay.Proofs.Tools.Readings

/-!
# Calls written as JSON are read back

The value of a call states that call (`callOf_valueOf`). So one written call, with blanks around it or
not, and an array of written calls are read as just these calls, if they may be made, have no floats
in their arguments and are not nested too deep (`parse_write`, `parse_arrayText`).
-/

namespace ChatRelay.JsonSyntax

/-- The value that states a call. -/
def valueOf (c : ToolCall) : Json :=
  .obj [("arguments", .obj c.arguments), ("name", .str c.name)]

variable {c : ToolCall}

/-- A name and arguments are the value of a call, in either order. -/
theorem object_eq_valueOf (c : ToolCall) :
    Json.object [("name", .str c.name), ("arguments", .obj c.arguments)] = valueOf c := by
  have horder : "arguments" < "name" := by decide
  rw [Json.object, Json.ofMembers, List.foldl_cons, List.foldl_cons, List.foldl_nil, Json.insert,
    Json.insert, if_pos horder, valueOf]

theorem write_eq (c : ToolCall) : write c = Json.write (valueOf c) := by
  rw [write, object_eq_valueOf]

/-- A call with a name is stated by its value. -/
theorem callOf_valueOf (hname : c.name ≠ "") : callOf (valueOf c) = .ok c := by
  have hlookup : [("arguments", Json.obj c.arguments), ("name", .str c.name)].lookup "name" =
      some (.str c.name) := by
    rw [Json.lookup_cons_of_ne (by decide), Json.lookup_cons_self]
  rw [valueOf, callOf, hlookup]
  simp only [hname, if_false, Json.lookup_cons_self, argumentsOf, Except.map]

/-! ### Texts -/

theorem valueOf_plain (h : c.Plain) : (valueOf c).FloatFree ∧ (valueOf c).Ordered := by
  have hascend : Json.KeysAscend [("arguments", Json.obj c.arguments), ("name", .str c.name)] := by
    have horder : ["arguments", "name"].Pairwise (· < ·) := by decide
    exact horder
  exact ⟨⟨h.floatFree, trivial, trivial⟩, hascend, h.ordered, trivial, trivial⟩

theorem depth_valueOf (c : ToolCall) : (valueOf c).depth = (Json.obj c.arguments).depth + 1 := by
  simp [valueOf, Json.depth, Json.depthMembers]

theorem tight_write_obj (members : List (String × Json)) :
    Text.Tight (Json.write (.obj members)) where
  head := by
    rw [Json.write, Json.objectText]
    rintro _ ⟨⟩
    decide
  last := by
    rw [Json.write, Json.objectText, List.getLast?_concat]
    rintro _ ⟨⟩
    decide

theorem tight_write (c : ToolCall) : Text.Tight (write c) := by
  rw [write_eq]
  exact tight_write_obj _

theorem tight_arrayText (items : List (List Char)) : Text.Tight (Json.arrayText items) where
  head := by
    rintro _ ⟨⟩
    decide
  last := by
    rw [Json.arrayText, List.getLast?_concat]
    rintro _ ⟨⟩
    decide

/-- The written calls between brackets are the text of one value. -/
theorem arrayText_eq (calls : List ToolCall) :
    Json.arrayText (calls.map write) = Json.write (.arr (calls.map valueOf)) := by
  rw [Json.write, Json.writeItems_eq_map, List.map_map]
  exact congrArg _ (List.map_congr_left fun c _ => write_eq c)

/-! ### Reading -/

variable {w : Whitelist}

/-- A written call is read as that call, with blanks around it or not. -/
theorem parse_write {before after : List Char} (hbefore : ∀ c ∈ before, Text.isBlank c = true)
    (hafter : ∀ c ∈ after, Text.isBlank c = true) (hw : w.Allows c) (hname : c.name ≠ "")
    (hplain : c.Plain) (hdepth : (Json.obj c.arguments).depth ≤ 125) :
    CallSyntax.json.parse w (before ++ CallSyntax.json.write c ++ after) = .ok [c] := by
  obtain ⟨hfloat, hordered⟩ := valueOf_plain hplain
  have hread : Json.parse? (write c) = some (valueOf c) := by
    rw [write_eq]
    refine Json.parse?_write hfloat hordered ?_
    rw [depth_valueOf, Json.Tree.depthLimit]
    omega
  have hcandidates : candidates (before ++ write c ++ after) =
      [c].map fun c => .ok (valueOf c) := by
    rw [candidates, Text.trim_append hbefore hafter (tight_write c), hread]
    rfl
  have hcall : ∀ d ∈ [c], callOf (valueOf d) = .ok (id d) :=
    List.forall_mem_singleton.2 (callOf_valueOf hname)
  exact CallSyntax.parse_of_candidates hcandidates hcall (List.cons_ne_nil c [])
    (List.forall_mem_singleton.2 hw)

/-- An array is cut into its items. -/
theorem candidates_of_items {text : List Char} {items : List Json} (htight : Text.Tight text)
    (hread : Json.parse? text = some (.arr items)) : candidates text = items.map .ok := by
  rw [candidates, Text.trim_of_tight htight, hread]

/-- A text that is an array of the values of calls is read as these calls. -/
theorem parse_of_values {text : List Char} {calls : List ToolCall} (htight : Text.Tight text)
    (hread : Json.parse? text = some (.arr (calls.map valueOf))) (hne : calls ≠ [])
    (hw : ∀ c ∈ calls, w.Allows c) (hname : ∀ c ∈ calls, c.name ≠ "") :
    CallSyntax.json.parse w text = .ok calls := by
  have hcandidates : candidates text = calls.map fun c => .ok (valueOf c) := by
    rw [candidates_of_items htight hread]
    exact List.map_map
  have hcall : ∀ c ∈ calls, callOf (valueOf c) = .ok (id c) :=
    fun c hc => callOf_valueOf (hname c hc)
  have hparse := CallSyntax.parse_of_candidates hcandidates hcall hne hw
  rwa [List.map_id] at hparse

/-- An array of written calls is read as these calls. -/
theorem parse_arrayText {calls : List ToolCall} (hne : calls ≠ [])
    (hw : ∀ c ∈ calls, w.Allows c) (hname : ∀ c ∈ calls, c.name ≠ "")
    (hplain : ∀ c ∈ calls, c.Plain)
    (hdepth : ∀ c ∈ calls, (Json.obj c.arguments).depth ≤ 125) :
    CallSyntax.json.parse w (Json.arrayText (calls.map CallSyntax.json.write)) = .ok calls := by
  have hfloat : (Json.arr (calls.map valueOf)).FloatFree :=
    Json.floatFreeItems_iff.2 (List.forall_mem_map.2 fun c hc => (valueOf_plain (hplain c hc)).1)
  have hordered : (Json.arr (calls.map valueOf)).Ordered :=
    Json.orderedItems_iff.2 (List.forall_mem_map.2 fun c hc => (valueOf_plain (hplain c hc)).2)
  have hitems : Json.depthItems (calls.map valueOf) ≤ 126 := by
    rw [Json.depthItems_le_iff, List.forall_mem_map]
    intro c hc
    have := hdepth c hc
    rw [depth_valueOf]
    omega
  refine parse_of_values (tight_arrayText _) ?_ hne hw hname
  show Json.parse? (Json.arrayText (calls.map write)) = _
  rw [arrayText_eq]
  refine Json.parse?_write hfloat hordered ?_
  rw [Json.depth, Json.Tree.depthLimit]
  omega

end ChatRelay.JsonSyntax
