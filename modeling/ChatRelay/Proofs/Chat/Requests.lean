import ChatRelay.Proofs.Json.Reading
import ChatRelay.Proofs.Json.Values

/-!
# Requests, written and read

The JSON form of a request is canonical (`write_canonical`). A request whose free-form values have
no floats is read back from its own text, with what is absent kept apart from what is empty, exactly
if none of these values is nested too deep. What has been read from any text, however that text was
laid out, is never nested too deep, so it is read back from what it is written as. And two requests
that have been read are written alike only if they are equal.
-/

namespace ChatRelay

open Json.Tree

/-! ### Texts of messages and requests -/

theorem Role.states_write (r : Role) : States read? 0 r.write r := by
  refine ⟨_, Json.Tree.spells_string r.name.toList, fun _ _ => ?_⟩
  rw [read?, oneOf?, name?, text?_map_some]
  cases r <;> rfl

theorem ToolDefinition.states_write {t : ToolDefinition} (hf : t.value.FloatFree)
    (ho : t.value.Ordered) : States read? t.value.depth t.write t := by
  obtain ⟨tree, hspells, hread⟩ := states_value t.value hf ho
  exact ⟨tree, hspells, fun depth hd => by rw [read?, hread depth hd]; rfl⟩

/-- A message is stated by its record if its calls are stated by theirs. -/
theorem Message.states_write {m : Message} {levels : Nat}
    (h : ∀ calls, m.toolCalls = some calls → ∀ c ∈ calls, States ToolCall.read? levels c.write c) :
    States read? (levels + 2) m.write m := by
  obtain ⟨role, content, toolCalls⟩ := m
  obtain ⟨roleTree, hrole, hreadRole⟩ := role.states_write
  obtain ⟨contentTree, hcontent, hreadContent⟩ := states_string content
  cases toolCalls with
  | none =>
    have hspells : Spells (write ⟨role, content, none⟩)
        (.obj ([("role", roleTree), ("content", contentTree)].map keyed)) :=
      spells_record (.cons ⟨rfl, hrole⟩ (.cons ⟨rfl, hcontent⟩ .nil))
    refine ⟨_, hspells, fun depth hd => ?_⟩
    rw [read?, record?_record (by simp) (by simp) _ (by omega)]
    simp [List.lookup, required, withDefault, Json.Tree.optional, hreadRole (depth - 1) (by omega),
      hreadContent (depth - 1) (by omega)]
  | some calls =>
    obtain ⟨callsTree, hcalls, hreadCalls⟩ := states_list (h calls rfl)
    have hspells : Spells (write ⟨role, content, some calls⟩)
        (.obj ([("role", roleTree), ("content", contentTree), ("tool_calls", callsTree)].map
          keyed)) :=
      spells_record (.cons ⟨rfl, hrole⟩ (.cons ⟨rfl, hcontent⟩ (.cons ⟨rfl, hcalls⟩ .nil)))
    refine ⟨_, hspells, fun depth hd => ?_⟩
    rw [read?, record?_record (by simp) (by simp) _ (by omega)]
    have hfield := optional_eq_some rfl (hreadCalls (depth - 1) (by omega))
    simp [List.lookup, required, withDefault, hfield, hreadRole (depth - 1) (by omega),
      hreadContent (depth - 1) (by omega)]

/-- A request is stated by its record if its messages and its tools are stated by theirs. -/
theorem GenerateRequest.states_of_parts {r : GenerateRequest} {levels : Nat}
    (hmessages : ∀ m ∈ r.messages, States Message.read? levels m.write m)
    (htools : ∀ tools, r.declaredTools = some tools →
      ∀ t ∈ tools, States ToolDefinition.read? levels t.write t) :
    States read? (levels + 2) r.write r := by
  obtain ⟨messages, declared⟩ := r
  obtain ⟨messagesTree, hmessages, hreadMessages⟩ := states_list hmessages
  cases declared with
  | none =>
    have hspells : Spells (write ⟨messages, none⟩)
        (.obj ([("messages", messagesTree)].map keyed)) :=
      spells_record (.cons ⟨rfl, hmessages⟩ .nil)
    refine ⟨_, hspells, fun depth hd => ?_⟩
    rw [read?, record?_record (by simp) (by simp) _ (by omega)]
    simp [List.lookup, withDefault, Json.Tree.optional, hreadMessages (depth - 1) (by omega)]
  | some tools =>
    obtain ⟨toolsTree, htools, hreadTools⟩ := states_list (htools tools rfl)
    have hspells : Spells (write ⟨messages, some tools⟩)
        (.obj ([("messages", messagesTree), ("tools", toolsTree)].map keyed)) :=
      spells_record (.cons ⟨rfl, hmessages⟩ (.cons ⟨rfl, htools⟩ .nil))
    refine ⟨_, hspells, fun depth hd => ?_⟩
    rw [read?, record?_record (by simp) (by simp) _ (by omega)]
    have hfield := optional_eq_some rfl (hreadTools (depth - 1) (by omega))
    simp [List.lookup, withDefault, hfield, hreadMessages (depth - 1) (by omega)]

/-! ### The free-form values of a request -/

namespace GenerateRequest

/-- A free-form value in a request, and the number of levels that it stands in. -/
inductive Holds (r : GenerateRequest) : Nat → Json → Prop where
  | arguments {m : Message} {calls : List ToolCall} {c : ToolCall} (hm : m ∈ r.messages)
      (hcalls : m.toolCalls = some calls) (hc : c ∈ calls) : Holds r 5 (.obj c.arguments)
  | tool {tools : List ToolDefinition} {t : ToolDefinition}
      (htools : r.declaredTools = some tools) (ht : t ∈ tools) : Holds r 2 t.value

/-- There is no float in a request. -/
def FloatFree (r : GenerateRequest) : Prop :=
  ∀ levels v, r.Holds levels v → v.FloatFree

/-- Every object in a request has its keys in order. -/
def Ordered (r : GenerateRequest) : Prop :=
  ∀ levels v, r.Holds levels v → v.Ordered

/-- Nothing in a request is nested deeper than can be read. -/
def Shallow (r : GenerateRequest) : Prop :=
  ∀ levels v, r.Holds levels v → levels + v.depth < depthLimit

variable {r : GenerateRequest} {s : Json.Input}

/-- A request is stated by its record, in one level less than can be read. -/
theorem states_write (hf : r.FloatFree) (ho : r.Ordered) (hs : r.Shallow) :
    States read? 127 r.write r := by
  -- A call stands in five levels: the request, its messages, a message, its calls and the call
  -- itself. A tool stands in two.
  refine states_of_parts ?_ ?_
  · intro m hm
    have hcalls : ∀ calls, m.toolCalls = some calls → ∀ c ∈ calls,
        States ToolCall.read? 123 c.write c := by
      intro calls hcalls c hc
      have hholds := Holds.arguments hm hcalls hc
      have hdepth := hs _ _ hholds
      rw [depthLimit] at hdepth
      exact (ToolCall.states_write ⟨hf _ _ hholds, ho _ _ hholds⟩).mono (by omega)
    exact Message.states_write hcalls
  · intro tools htools t ht
    have hholds := Holds.tool htools ht
    have hdepth := hs _ _ hholds
    rw [depthLimit] at hdepth
    exact (ToolDefinition.states_write (hf _ _ hholds) (ho _ _ hholds)).mono (by omega)

theorem parse?_write (hf : r.FloatFree) (ho : r.Ordered) (hs : r.Shallow) :
    parse? (r.write.map some) = some r :=
  (states_write hf ho hs).ofChars? (by decide)

end GenerateRequest

/-! ### What has been read -/

variable {depth : Nat} {t : Json.Tree}

/-- The arguments of a call that has been read are in order, and two levels fewer than there were to
read the call with. -/
theorem ToolCall.of_read? {c : ToolCall} (h : read? depth t = some c) (hd : 2 < depth) :
    (Json.obj c.arguments).Ordered ∧ (Json.obj c.arguments).depth + 2 ≤ depth := by
  obtain ⟨-, h⟩ := read_of_record? h
  simp only [Option.bind_eq_bind, Option.bind_eq_some_iff] at h
  obtain ⟨name, -, arguments, harguments, h⟩ := h
  obtain rfl := Option.some.inj h
  rcases exists_of_withDefault harguments with rfl | ⟨t', ht'⟩
  · exact ⟨⟨.nil, trivial⟩, hd⟩
  · have hjson := json?_of_members? ht'
    have hdepth := depth_json? t' hjson
    exact ⟨ordered_json? t' hjson, by dsimp only; omega⟩

/-- So are those of the calls in a message, with the two levels of the message and of its list of
calls besides. -/
theorem Message.of_read? {m : Message} (h : read? depth t = some m) (hd : 4 < depth) :
    ∀ calls, m.toolCalls = some calls → ∀ c ∈ calls,
      (Json.obj c.arguments).Ordered ∧ (Json.obj c.arguments).depth + 4 ≤ depth := by
  obtain ⟨-, h⟩ := read_of_record? h
  simp only [Option.bind_eq_bind, Option.bind_eq_some_iff] at h
  obtain ⟨role, -, content, -, toolCalls, hcalls, h⟩ := h
  obtain rfl := Option.some.inj h
  rintro calls rfl c hc
  obtain ⟨t', ht'⟩ := exists_of_optional hcalls
  obtain ⟨t'', hread⟩ := exists_of_list? ht' c hc
  obtain ⟨hordered, hdepth⟩ := ToolCall.of_read? hread (by omega)
  exact ⟨hordered, by omega⟩

namespace GenerateRequest

/-- A request that has been read is in order and not nested too deep. -/
theorem of_parse? (h : parse? s = some r) : r.Ordered ∧ r.Shallow := by
  obtain ⟨t, -, h⟩ := Option.bind_eq_some_iff.1 h
  obtain ⟨-, h⟩ := read_of_record? h
  simp only [Option.bind_eq_bind, Option.bind_eq_some_iff] at h
  obtain ⟨messages, hmessages, declared, hdeclared, h⟩ := h
  obtain rfl := Option.some.inj h
  have hvalues : ∀ levels v, Holds ⟨messages, declared⟩ levels v →
      v.Ordered ∧ levels + v.depth < depthLimit := by
    intro levels v hv
    cases hv with
    | arguments hm hcalls hc =>
      rcases exists_of_withDefault hmessages with rfl | ⟨t', ht'⟩
      · cases hm
      · obtain ⟨t'', hread⟩ := exists_of_list? ht' _ hm
        obtain ⟨hordered, hdepth⟩ := Message.of_read? hread (by decide) _ hcalls _ hc
        exact ⟨hordered, by rw [depthLimit] at hdepth ⊢; omega⟩
    | tool htools ht =>
      obtain rfl : declared = some _ := htools
      obtain ⟨t', ht'⟩ := exists_of_optional hdeclared
      obtain ⟨t'', hread⟩ := exists_of_list? ht' _ ht
      obtain ⟨v, hv, rfl⟩ := Option.map_eq_some_iff.1 hread
      have hdepth := depth_json? t'' hv
      exact ⟨ordered_json? t'' hv, by rw [depthLimit] at hdepth ⊢; dsimp only; omega⟩
  exact ⟨fun levels v hv => (hvalues levels v hv).1, fun levels v hv => (hvalues levels v hv).2⟩

/-- What has been read from any text is read back from what it is written as. -/
theorem parse?_write_of_parse? (h : parse? s = some r) (hf : r.FloatFree) :
    parse? (r.write.map some) = some r :=
  parse?_write hf (of_parse? h).1 (of_parse? h).2

/-- The JSON form of requests is canonical: requests are read back from it, whatever text they have
been read from has one form, and different requests have different forms. -/
theorem write_canonical :
    (∀ r : GenerateRequest, r.FloatFree → r.Ordered →
      (parse? (r.write.map some) = some r ↔ r.Shallow)) ∧
    (∀ s r, parse? s = some r → r.FloatFree → parse? (r.write.map some) = some r) ∧
    ∀ s s' r r', parse? s = some r → parse? s' = some r' → r.FloatFree → r'.FloatFree →
      (r.write = r'.write ↔ r = r') := by
  refine ⟨fun r hf ho => ?_, fun s r h hf => parse?_write_of_parse? h hf, ?_⟩
  · exact ⟨fun h => (of_parse? h).2, parse?_write hf ho⟩
  · intro s s' r r' h h' hf hf'
    refine ⟨fun heq => ?_, congrArg write⟩
    have hback := parse?_write_of_parse? h hf
    rw [heq, parse?_write_of_parse? h' hf'] at hback
    exact (Option.some.inj hback).symm

/-- A request with one call. -/
def oneCall : GenerateRequest where
  messages := [⟨.assistant, "", some
    [⟨"f", [("a", .arr [.bool true]), ("b", .num (.int 7 (by decide)))]⟩]⟩]
  declaredTools := none

/-- The request as arrays of the first fields. -/
def positional : Json.Input :=
  "[[[\"assistant\",\"\",[[\"f\",\x7b\"b\":7,\"a\":[true]\x7d]]]]]".toList.map some

/-- The request as objects, with their fields in another order, an unknown one and a key twice. -/
def reordered : Json.Input :=
  ("\x7b\"id\":0,\"tools\":null,\"messages\":[\x7b\"tool_calls\":" ++
    "[\x7b\"arguments\":\x7b\"b\":0,\"a\":[true],\"b\":7\x7d,\"name\":\"f\"\x7d]," ++
    "\"role\":\"assistant\"\x7d]\x7d").toList.map some

theorem write_canonical_layouts :
    parse? positional = some oneCall ∧ parse? reordered = some oneCall ∧
      parse? (oneCall.write.map some) = some oneCall ∧ oneCall.Shallow ∧
      write ⟨[], some []⟩ ≠ write ⟨[], none⟩ := by
  have hempty : parse? ("\x7b\"tools\":[]\x7d".toList.map some) = some ⟨[], some []⟩ := by cbv
  have habsent : parse? ("\x7b\x7d".toList.map some) = some ⟨[], none⟩ := by cbv
  have hpositional : parse? positional = some oneCall := by
    unfold positional oneCall
    cbv
  have hreordered : parse? reordered = some oneCall := by
    unfold reordered oneCall
    cbv
  have hfree : oneCall.FloatFree := by
    rintro _ _ (⟨hm, hcalls, hc⟩ | ⟨htools, -⟩)
    · obtain rfl := List.mem_singleton.1 hm
      obtain rfl := Option.some.inj hcalls
      obtain rfl := List.mem_singleton.1 hc
      simp [Json.FloatFree, Json.FloatFreeMembers, Json.FloatFreeItems]
    · cases htools
  have hfreeEmpty : FloatFree ⟨[], some []⟩ := by
    rintro _ _ (⟨hm, -, -⟩ | ⟨htools, ht⟩)
    · cases hm
    · obtain rfl := Option.some.inj htools
      cases ht
  have hfreeAbsent : FloatFree ⟨[], none⟩ := by
    rintro _ _ (⟨hm, -, -⟩ | ⟨htools, -⟩)
    · cases hm
    · cases htools
  obtain ⟨hshallow, hback, hforms⟩ := write_canonical
  have hread := hback _ _ hreordered hfree
  have hordered := (of_parse? hreordered).1
  refine ⟨hpositional, hreordered, hread, (hshallow _ hfree hordered).1 hread, fun heq => ?_⟩
  cases (hforms _ _ _ _ hempty habsent hfreeEmpty hfreeAbsent).1 heq

end GenerateRequest

end ChatRelay
