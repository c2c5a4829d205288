import ChatRelay.Chat.Message
import ChatRelay.Proofs.Json.Members
import ChatRelay.Proofs.Json.Spelling

/-!
# What is written as JSON can be read back

A text states a thing if it spells a tree from which a reader gets that thing (`States`). Lists and
records are stated if their parts are (`states_list`, `record?_record`), at the price of one level
of nesting each. A value without floats, whose objects are in order, is stated by its own text
(`states_value`), and is read back from it as long as it is not nested too deep (`parse?_write`).
The same holds for lists of calls (`ToolCall.readAll?_writeAll`).
-/

namespace ChatRelay.Json

/-! ### Depth and floats -/

mutual

/-- The number of levels of arrays and objects. -/
def depth : Json → Nat
  | null | bool _ | num _ | str _ => 0
  | arr items => depthItems items + 1
  | obj members => depthMembers members + 1

/-- The levels of the deepest item. -/
def depthItems : List Json → Nat
  | [] => 0
  | v :: rest => max (depth v) (depthItems rest)

/-- The levels of the deepest member. -/
def depthMembers : List (String × Json) → Nat
  | [] => 0
  | (_, v) :: rest => max (depth v) (depthMembers rest)

end

mutual

/-- There is no float in the value. -/
def FloatFree : Json → Prop
  | null | bool _ | str _ | num (.int _ _) => True
  | num (.float _) => False
  | arr items => FloatFreeItems items
  | obj members => FloatFreeMembers members

/-- There is no float in any item. -/
def FloatFreeItems : List Json → Prop
  | [] => True
  | v :: rest => FloatFree v ∧ FloatFreeItems rest

/-- There is no float in any member. -/
def FloatFreeMembers : List (String × Json) → Prop
  | [] => True
  | (_, v) :: rest => FloatFree v ∧ FloatFreeMembers rest

end

theorem floatFreeItems_iff {items : List Json} :
    FloatFreeItems items ↔ ∀ v ∈ items, FloatFree v := by
  induction items with
  | nil => simp [FloatFreeItems]
  | cons v rest ih => rw [FloatFreeItems, ih, List.forall_mem_cons]

theorem orderedItems_iff {items : List Json} : OrderedItems items ↔ ∀ v ∈ items, Ordered v := by
  induction items with
  | nil => simp [OrderedItems]
  | cons v rest ih => rw [OrderedItems, ih, List.forall_mem_cons]

theorem depthItems_le_iff {items : List Json} {n : Nat} :
    depthItems items ≤ n ↔ ∀ v ∈ items, depth v ≤ n := by
  induction items with
  | nil => simp [depthItems]
  | cons v rest ih => rw [depthItems, Nat.max_le, ih, List.forall_mem_cons]

theorem floatFreeMembers_iff {members : List (String × Json)} :
    FloatFreeMembers members ↔ ∀ m ∈ members, FloatFree m.2 := by
  induction members with
  | nil => simp [FloatFreeMembers]
  | cons m rest ih => rw [FloatFreeMembers, ih, List.forall_mem_cons]

theorem depthMembers_le_iff {members : List (String × Json)} {n : Nat} :
    depthMembers members ≤ n ↔ ∀ m ∈ members, depth m.2 ≤ n := by
  induction members with
  | nil => simp [depthMembers]
  | cons m rest ih => rw [depthMembers, Nat.max_le, ih, List.forall_mem_cons]

theorem writeItems_eq_map (items : List Json) : writeItems items = items.map write := by
  induction items with
  | nil => rfl
  | cons v rest ih => rw [writeItems, ih, List.map_cons]

/-- An object is written as a record of its members. -/
theorem write_obj (members : List (String × Json)) :
    write (.obj members) = recordText (members.map fun m => (m.1, write m.2)) := by
  have hmembers : writeMembers members = members.map fun m => memberText m.1 (write m.2) := by
    induction members with
    | nil => rfl
    | cons m rest ih =>
      obtain ⟨k, v⟩ := m
      rw [writeMembers, ih, List.map_cons]
  rw [write, hmembers, recordText, List.map_map]
  rfl

namespace Tree

/-! ### Texts that state a thing -/

/-- A text that spells a tree from which a reader gets a thing, if more than so many levels are
left. -/
def States (read : Reader α) (levels : Nat) (cs : List Char) (a : α) : Prop :=
  ∃ t, Spells cs t ∧ ∀ depth, levels < depth → read depth t = some a

variable {α : Type} {read : Reader α} {levels : Nat}

theorem States.mono {cs : List Char} {a : α} (h : States read levels cs a) {more : Nat}
    (hle : levels ≤ more) : States read more cs a := by
  obtain ⟨t, hspells, hread⟩ := h
  exact ⟨t, hspells, fun depth hd => hread depth (Nat.lt_of_le_of_lt hle hd)⟩

theorem States.ofChars? {cs : List Char} {a : α} (h : States read levels cs a) {depth : Nat}
    (hd : levels < depth) : (Tree.ofChars? cs).bind (read depth) = some a := by
  obtain ⟨t, hspells, hread⟩ := h
  rw [hspells.ofChars?, Option.bind_some, hread depth hd]

theorem mapM_id_map_some (cs : List α) : (cs.map some).mapM id = some cs := by
  induction cs with
  | nil => rfl
  | cons c cs ih => simp [List.mapM_cons, ih]

/-- The text of a string's characters. -/
@[simp] theorem text?_map_some (s : String) : text? (s.toList.map some) = some s := by
  rw [text?, mapM_id_map_some, Option.map_some, String.ofList_toList]

theorem states_string (s : String) : States string? 0 (stringText s.toList) s :=
  ⟨_, spells_string s.toList, fun _ _ => text?_map_some s⟩

/-- A list of things that are made from parts is stated if each thing is, by a text made from its
part. -/
theorem states_list_map {β : Type} {text : β → List Char} {value : β → α} {bs : List β}
    (h : ∀ b ∈ bs, States read levels (text b) (value b)) :
    States (list? read) (levels + 1) (arrayText (bs.map text)) (bs.map value) := by
  have hparts : ∃ ts, List.Forall₂ Spells (bs.map text) ts ∧
      ∀ depth, levels < depth → ts.mapM (read depth) = some (bs.map value) := by
    induction bs with
    | nil => exact ⟨[], .nil, fun _ _ => rfl⟩
    | cons b bs ih =>
      obtain ⟨hb, hrest⟩ := List.forall_mem_cons.1 h
      obtain ⟨t, hspells, hread⟩ := hb
      obtain ⟨ts, hall, hreads⟩ := ih hrest
      refine ⟨t :: ts, .cons hspells hall, fun depth hd => ?_⟩
      simp [List.mapM_cons, hread depth hd, hreads depth hd]
  obtain ⟨ts, hall, hreads⟩ := hparts
  refine ⟨.arr ts, spells_array hall, fun depth hd => ?_⟩
  have henter : enter? depth = some (depth - 1) := if_neg (by omega)
  rw [list?, henter, Option.bind_some, hreads _ (by omega)]

/-- A list is stated if its items are. -/
theorem states_list {text : α → List Char} {as : List α}
    (h : ∀ a ∈ as, States read levels (text a) a) :
    States (list? read) (levels + 1) (arrayText (as.map text)) as := by
  have hmap : States (list? read) (levels + 1) (arrayText (as.map text)) (as.map id) :=
    states_list_map h
  rwa [List.map_id] at hmap

/-- A written record has the fields that it is written with. -/
theorem fields?_record {names : List String} {members : List (String × Tree)}
    (hnames : ∀ m ∈ members, m.1 ∈ names) (hnodup : (members.map (·.1)).Nodup) :
    fields? names (.obj (members.map keyed)) = some members := by
  have hnamed : (members.map keyed).mapM (fun m => (text? m.1).map (·, m.2)) = some members := by
    rw [List.mapM_map]
    clear hnames hnodup
    induction members with
    | nil => rfl
    | cons m members ih =>
      rw [List.mapM_cons, ih]
      simp [keyed]
  have hknown : members.filter (fun m => names.contains m.1) = members := by
    rw [List.filter_eq_self]
    exact fun m hm => List.contains_iff_mem.2 (hnames m hm)
  rw [fields?, hnamed]
  simp only [hknown, hnodup, if_true]

/-- A written record is read field by field, one level further in. -/
theorem record?_record {names : List String} {members : List (String × Tree)}
    (hnames : ∀ m ∈ members, m.1 ∈ names) (hnodup : (members.map (·.1)).Nodup)
    (readFields : Nat → (String → Option Tree) → Option α) {depth : Nat} (hd : 1 < depth) :
    record? names readFields depth (.obj (members.map keyed)) =
      readFields (depth - 1) (members.lookup ·) := by
  have henter : enter? depth = some (depth - 1) := if_neg (by omega)
  simp only [record?, henter, fields?_record hnames hnodup, Option.bind_eq_bind, Option.bind_some]

/-! ### Values -/

theorem states_number {n : Number} (h : FloatFree (.num n)) :
    States json? 0 (write (.num n)) (.num n) := by
  cases n with
  | float x => exact h.elim
  | int n hrange =>
    refine ⟨_, spells_integer n, fun _ _ => ?_⟩
    rw [json?, Numeral.number?_ofInt hrange]
    rfl

mutual

/-- A value is stated by its text. -/
theorem states_value : (v : Json) → v.FloatFree → v.Ordered → States json? v.depth (write v) v
  | .null, _, _ => ⟨.null, spells_null, fun _ _ => rfl⟩
  | .bool b, _, _ => ⟨.bool b, spells_bool b, fun _ _ => rfl⟩
  | .num _, hf, _ => states_number hf
  | .str s, _, _ => by
    refine ⟨_, spells_string s.toList, fun _ _ => ?_⟩
    rw [json?, text?_map_some]
    rfl
  | .arr items, hf, ho => by
    obtain ⟨ts, hspells, hread⟩ := states_items items hf ho
    refine ⟨.arr ts, spells_array hspells, fun d hd => ?_⟩
    rw [depth] at hd
    rw [json?, if_neg (by omega), hread _ (by omega)]
    rfl
  | .obj members, hf, ho => by
    obtain ⟨ts, hspells, hread⟩ := states_members members hf ho.2
    rw [write_obj]
    refine ⟨_, spells_record hspells, fun d hd => ?_⟩
    rw [depth] at hd
    rw [json?, if_neg (by omega), hread _ (by omega), Option.map_some, object,
      ofMembers_of_keysAscend ho.1]

/-- The items of an array are spelled, and read with the levels of the deepest. -/
theorem states_items : (items : List Json) → FloatFreeItems items → OrderedItems items →
    ∃ ts, List.Forall₂ Spells (writeItems items) ts ∧
      ∀ d, depthItems items < d → jsonItems? d ts = some items
  | [], _, _ => ⟨[], .nil, fun _ _ => rfl⟩
  | v :: rest, hf, ho => by
    obtain ⟨t, hspells, hread⟩ := states_value v hf.1 ho.1
    obtain ⟨ts, hall, hreads⟩ := states_items rest hf.2 ho.2
    refine ⟨t :: ts, .cons hspells hall, fun d hd => ?_⟩
    rw [depthItems] at hd
    rw [jsonItems?, hread d (by omega), hreads d (by omega)]
    rfl

/-- The members of an object are spelled, and read with the levels of the deepest. -/
theorem states_members : (members : List (String × Json)) → FloatFreeMembers members →
    OrderedMembers members → ∃ ts : List (String × Tree),
      List.Forall₂ SpellsField (members.map fun m => (m.1, write m.2)) ts ∧
        ∀ d, depthMembers members < d → jsonMembers? d (ts.map keyed) = some members
  | [], _, _ => ⟨[], .nil, fun _ _ => rfl⟩
  | (k, v) :: rest, hf, ho => by
    obtain ⟨t, hspells, hread⟩ := states_value v hf.1 ho.1
    obtain ⟨ts, hall, hreads⟩ := states_members rest hf.2 ho.2
    refine ⟨(k, t) :: ts, .cons ⟨rfl, hspells⟩ hall, fun d hd => ?_⟩
    rw [depthMembers] at hd
    rw [List.map_cons, keyed, jsonMembers?, text?_map_some, hread d (by omega), hreads d (by omega)]
    rfl

end

theorem jsonItems?_eq_mapM (depth : Nat) (ts : List Tree) :
    jsonItems? depth ts = ts.mapM (json? depth) := by
  induction ts with
  | nil => rfl
  | cons t ts ih =>
    rw [jsonItems?, ih, List.mapM_cons]
    cases json? depth t with
    | none => rfl
    | some v => cases ts.mapM (json? depth) <;> rfl

/-- What states a list of values states the array of them. -/
theorem States.array {cs : List Char} {vs : List Json} (h : States (list? json?) levels cs vs) :
    States json? levels cs (.arr vs) := by
  obtain ⟨t, hspells, hread⟩ := h
  refine ⟨t, hspells, ?_⟩
  intro depth hd
  have hlist := hread depth hd
  cases t with
  | arr items =>
    obtain ⟨inner, henter, hitems⟩ := Option.bind_eq_some_iff.1 hlist
    rw [enter?] at henter
    split at henter
    · cases henter
    · next hinside =>
      obtain rfl := Option.some.inj henter
      rw [json?, if_neg hinside, jsonItems?_eq_mapM, hitems]
      rfl
  | _ => cases hlist

/-- A record of values states the object of them, whatever the order of its fields. -/
theorem states_record {members : List (String × Json)} (hf : FloatFreeMembers members)
    (ho : OrderedMembers members) :
    States json? (depthMembers members + 1) (recordText (members.map fun m => (m.1, write m.2)))
      (Json.object members) := by
  obtain ⟨ts, hspells, hread⟩ := states_members members hf ho
  refine ⟨_, spells_record hspells, ?_⟩
  intro depth hd
  rw [json?, if_neg (by omega), hread _ (by omega)]
  rfl

/-- The members of an object are stated by its text. -/
theorem states_object {members : List (String × Json)} (hf : (Json.obj members).FloatFree)
    (ho : (Json.obj members).Ordered) :
    States members? (Json.obj members).depth (write (.obj members)) members := by
  obtain ⟨ts, hspells, -⟩ := states_members members hf ho.2
  rw [write_obj]
  refine ⟨_, spells_record hspells, fun d hd => ?_⟩
  obtain ⟨t, hspells', hread⟩ := states_value (.obj members) hf ho
  rw [write_obj] at hspells'
  -- The text spells one tree only.
  obtain rfl : t = .obj (ts.map keyed) := by
    have := hspells'.ofChars?.symm.trans (spells_record hspells).ofChars?
    exact Option.some.inj this
  rw [members?, hread d hd]

end Tree

/-- A value without floats that is not nested too deep is read back. -/
theorem parse?_write {v : Json} (hf : v.FloatFree) (ho : v.Ordered)
    (hd : v.depth < Tree.depthLimit) : parse? (write v) = some v :=
  (Tree.states_value v hf ho).ofChars? hd

end ChatRelay.Json

namespace ChatRelay.ToolCall

open Json.Tree

/-! ### Calls -/

/-- The calls in a JSON array of calls. -/
def readAll? (cs : List Char) : Option (List ToolCall) :=
  (ofChars? cs).bind (list? read? depthLimit)

/-- A call whose arguments have no floats and are in the order of their names, at every depth. -/
structure Plain (c : ToolCall) : Prop where
  floatFree : (Json.obj c.arguments).FloatFree
  ordered : (Json.obj c.arguments).Ordered

/-- A call is stated by its record, at one level more than its arguments. -/
theorem states_write {c : ToolCall} (h : c.Plain) :
    States read? ((Json.obj c.arguments).depth + 1) c.write c := by
  obtain ⟨name, hname, hreadName⟩ := states_string c.name
  obtain ⟨arguments, harguments, hreadArguments⟩ := states_object h.floatFree h.ordered
  have hspells : Spells c.write (.obj ([("name", name), ("arguments", arguments)].map keyed)) :=
    spells_record (.cons ⟨rfl, hname⟩ (.cons ⟨rfl, harguments⟩ .nil))
  refine ⟨_, hspells, fun depth hd => ?_⟩
  rw [read?, record?_record (by simp) (by simp) _ (by omega)]
  have hlookup : List.lookup "arguments" [("name", name), ("arguments", arguments)] =
      some arguments := rfl
  simp [required, withDefault, hlookup, hreadName (depth - 1) (by omega),
    hreadArguments (depth - 1) (by omega)]

/-- A list of calls is read back from its text. -/
theorem readAll?_writeAll {calls : List ToolCall} (h : ∀ c ∈ calls, c.Plain)
    (hd : ∀ c ∈ calls, (Json.obj c.arguments).depth ≤ 125) :
    readAll? (writeAll calls) = some calls := by
  have hstates : ∀ c ∈ calls, States read? 126 c.write c := fun c hc =>
    (states_write (h c hc)).mono (by have := hd c hc; omega)
  exact (states_list hstates).ofChars? (by decide)

end ChatRelay.ToolCall
