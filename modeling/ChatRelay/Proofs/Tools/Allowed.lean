import ChatRelay.Proofs.Json.Values
import ChatRelay.Proofs.Tools.Binding
import ChatRelay.Proofs.Tools.Readings

/-!
# Only allowed calls are handed on

Whatever a model writes, the calls that are read from it may be made (`admits_of_parse`): in the
one syntax they have passed the whitelist, in the other the arguments were bound to the signature of
a built-in function, which comes to the same. And whoever reads these calls back from the text in
which they are handed on gets calls that may be made (`allows_of_readAll?`): of a built-in function
the very same call, of a declared one a call with that name.
-/

namespace ChatRelay

/-- A call that may be made, with its arguments in order. -/
structure Whitelist.Admits (w : Whitelist) (c : ToolCall) : Prop where
  allowed : w.Allows c
  ascend : Json.KeysAscend c.arguments

/-! ### Calls written as JSON -/

namespace JsonSyntax

variable {w : Whitelist} {text : List Char} {v : Json} {c : ToolCall}

theorem ordered_of_candidates (h : .ok v ∈ candidates text) : v.Ordered := by
  rw [candidates] at h
  split at h
  · next items hparse =>
    obtain ⟨item, hitem, heq⟩ := List.mem_map.1 h
    obtain rfl : item = v := Except.ok.inj heq
    exact Json.orderedItems_iff.1 (Json.ordered_parse? hparse) item hitem
  · next value _ hparse =>
    obtain rfl : v = value := Except.ok.inj (List.mem_singleton.1 h)
    exact Json.ordered_parse? hparse
  · obtain ⟨line, -, heq⟩ := List.mem_map.1 h
    split at heq
    · next value hparse =>
      obtain rfl : value = v := Except.ok.inj heq
      exact Json.ordered_parse? hparse
    · cases heq

theorem ordered_argumentsOf {function : String} {o : Option Json} (ho : ∀ v ∈ o, v.Ordered)
    {arguments : List (String × Json)} (h : argumentsOf function o = .ok arguments) :
    (Json.obj arguments).Ordered := by
  unfold argumentsOf at h
  split at h
  · cases h
    exact ⟨Json.keysAscend_nil, trivial⟩
  · cases h
    exact ⟨Json.keysAscend_nil, trivial⟩
  · next members =>
    obtain rfl := Except.ok.inj h
    exact ho _ rfl
  · split at h
    · next members hparse =>
      obtain rfl := Except.ok.inj h
      exact Json.ordered_parse? hparse
    · cases h
  · cases h

/-- A call that a value states has a name, and arguments that are in order. -/
theorem ordered_callOf (hv : v.Ordered) (h : callOf v = .ok c) :
    c.name ≠ "" ∧ (Json.obj c.arguments).Ordered := by
  unfold callOf at h
  split at h
  · next members =>
    split at h
    · next name _ =>
      split at h
      · cases h
      · next hname =>
        obtain ⟨arguments, hargs, rfl⟩ := ok_of_map h
        refine ⟨hname, ordered_argumentsOf ?_ hargs⟩
        intro a ha
        exact Json.orderedMembers_iff.1 hv.2 _ (Json.mem_of_lookup ha)
    · cases h
  · cases h

theorem callOf_of_allowedCallOf (h : allowedCallOf w v = .ok c) : w.Allows c ∧ callOf v = .ok c := by
  obtain ⟨call, hcall, hchecked⟩ := ok_of_bind h
  split at hchecked
  · next hcheck =>
    obtain rfl := Except.ok.inj hchecked
    exact ⟨hcheck, hcall⟩
  · cases hchecked

theorem admits_of_allowedCallOf (hv : v.Ordered) (h : allowedCallOf w v = .ok c) : w.Admits c := by
  obtain ⟨hallowed, hcall⟩ := callOf_of_allowedCallOf h
  exact ⟨hallowed, (ordered_callOf hv hcall).2.1⟩

end JsonSyntax

/-! ### Calls written as expressions -/

/-- A literal that can be an argument of a kind has a value of that kind. -/
theorem Literal.admits_of_toJson {kind : ParamKind} {l : Literal} {v : Json}
    (h : l.toJson kind = .ok v) : kind.admits v = true := by
  cases kind with
  | index =>
    cases l with
    | str s => cases h
    | int n =>
      rw [toJson] at h
      split at h
      · next hrange =>
        obtain rfl := Except.ok.inj h
        simp [ParamKind.admits, Json.index?, hrange.1]
      · cases h
  | date =>
    cases l with
    | int n => cases h
    | str s =>
      rw [toJson] at h
      split at h
      · next hdate =>
        obtain rfl := Except.ok.inj h
        exact hdate
      · cases h

namespace Signature

variable {s : Signature}

/-- Members that were bound to parameters. -/
structure Bound (s : Signature) (bound : List (String × Json)) : Prop where
  ascend : Json.KeysAscend bound
  kinds : ∀ m ∈ bound, ∃ p ∈ s.params, p.name = m.1 ∧ p.kind.admits m.2 = true

theorem mem_of_target {index : Nat} {named : Bool} {a : Argument} {p : Param}
    (h : s.target index named a = .ok p) : p ∈ s.params := by
  unfold target at h
  split at h
  · split at h
    · next hp =>
      obtain rfl := Except.ok.inj h
      exact (param?_eq_some hp).1
    · cases h
  · split at h
    · cases h
    · split at h
      · next hp =>
        obtain rfl := Except.ok.inj h
        exact List.mem_of_getElem? hp
      · cases h

/-- One more argument is bound. -/
theorem Bound.insert {bound : List (String × Json)} (h : s.Bound bound) {p : Param}
    (hp : p ∈ s.params) {v : Json} (hv : p.kind.admits v = true) :
    s.Bound (Json.insert p.name v bound) := by
  refine ⟨Json.keysAscend_insert h.ascend, ?_⟩
  intro m hm
  rcases Json.mem_insert hm with rfl | hm
  · exact ⟨p, hp, rfl, hv⟩
  · exact h.kinds m hm

theorem bound_bindArguments {arguments : List Argument} {index : Nat} {named : Bool}
    {bound result : List (String × Json)} (hbound : s.Bound bound)
    (h : s.bindArguments index named bound arguments = .ok result) : s.Bound result := by
  induction arguments generalizing index named bound with
  | nil =>
    obtain rfl := Except.ok.inj h
    exact hbound
  | cons a rest ih =>
    obtain ⟨p, htarget, h⟩ := ok_of_bind h
    split at h
    · cases h
    · obtain ⟨v, hvalue, h⟩ := ok_of_bind h
      have hadmits := Literal.admits_of_toJson (ok_of_mapError hvalue)
      exact ih (hbound.insert (mem_of_target htarget) hadmits) h

/-- Arguments that were bound pass the check, if none is missing. -/
theorem validate_of_bound (hs : (s.params.map (·.name)).Nodup) {bound : List (String × Json)}
    (hbound : s.Bound bound) (hall : ∀ p ∈ s.params, (bound.lookup p.name).isSome = true) :
    s.validate bound = .ok () := by
  refine validate_eq_ok.2 ⟨?_, ?_⟩
  · intro m hm
    obtain ⟨p, hp, hname, -⟩ := hbound.kinds m hm
    rw [← hname, param?_of_mem hs hp]
    rfl
  · intro p hp
    obtain ⟨v, hv⟩ := Option.isSome_iff_exists.1 (hall p hp)
    obtain ⟨q, hq, hname, hadmits⟩ := hbound.kinds _ (Json.mem_of_lookup hv)
    -- No two parameters have one name.
    obtain rfl : q = p := List.inj_on_of_nodup_map hs hq hp hname
    exact ⟨v, hv, hadmits⟩

theorem validate_of_bind (hs : (s.params.map (·.name)).Nodup) {e : CallExpr} {c : ToolCall}
    (hc : s.bind e = .ok c) :
    c.name = s.name ∧ s.validate c.arguments = .ok () ∧ Json.KeysAscend c.arguments := by
  obtain ⟨bound, hbind, hcomplete⟩ := ok_of_bind hc
  split at hcomplete
  · cases hcomplete
  · next hnone =>
    obtain rfl := Except.ok.inj hcomplete
    have hbound : s.Bound bound := bound_bindArguments ⟨Json.keysAscend_nil, nofun⟩ hbind
    refine ⟨rfl, validate_of_bound hs hbound ?_, hbound.ascend⟩
    intro p hp
    have hsome := List.find?_eq_none.1 hnone p hp
    simpa [Option.isSome_iff_ne_none] using hsome

end Signature

namespace ExpressionSyntax

variable {line : List Char} {c : ToolCall}

theorem admits_of_readLine (w : Whitelist) (h : readLine line = .ok c) : w.Admits c := by
  rw [readLine] at h
  split at h
  · cases h
  · next e _ =>
    split at h
    · cases h
    · next s hs =>
      obtain ⟨hall, hname⟩ := Catalog.lookup?_eq_some hs
      obtain ⟨hcall, hvalid, hascend⟩ :=
        Signature.validate_of_bind (Catalog.wellNamed hall).nodup (ok_of_mapError h)
      refine ⟨?_, hascend⟩
      rw [Whitelist.Allows, Whitelist.check, hcall, hname, hs]
      simp only [hvalid, Except.mapError]

end ExpressionSyntax

namespace CallSyntax

variable {w : Whitelist} {text : List Char} {calls : List ToolCall}

/-- What holds of every call that a value in order states and of every call on a line holds of all
calls that are read. -/
theorem forall_of_parse {P : ToolCall → Prop}
    (hjson : ∀ (v : Json) c, v.Ordered → JsonSyntax.allowedCallOf w v = .ok c → P c)
    (hline : ∀ line c, ExpressionSyntax.readLine line = .ok c → P c) (s : CallSyntax)
    (h : s.parse w text = .ok calls) : calls ≠ [] ∧ ∀ c ∈ calls, P c := by
  obtain ⟨rfl, hne⟩ := parse_eq_ok_iff.1 h
  refine ⟨hne, fun c hc => ?_⟩
  cases s with
  | json =>
    rw [callsIn_json] at hc
    obtain ⟨r, hr, hread⟩ := List.mem_filterMap.1 hc
    obtain ⟨v, rfl, hcall⟩ := ok_of_bind (ok_of_toOption hread)
    exact hjson v c (JsonSyntax.ordered_of_candidates hr) hcall
  | expression =>
    rw [callsIn_expression] at hc
    obtain ⟨line, -, hread⟩ := List.mem_filterMap.1 hc
    exact hline line c (ok_of_toOption hread)

/-- All calls that are read may be made. -/
theorem admits_of_parse (s : CallSyntax) (h : s.parse w text = .ok calls) :
    calls ≠ [] ∧ ∀ c ∈ calls, w.Admits c :=
  s.forall_of_parse (fun _ _ hv hc => JsonSyntax.admits_of_allowedCallOf hv hc)
    (fun _ _ hc => ExpressionSyntax.admits_of_readLine w hc) h

end CallSyntax

/-! ### Reading back -/

namespace ToolCall

open Json.Tree

variable {w : Whitelist} {c : ToolCall} {calls : List ToolCall}

/-- The arguments of a built-in function are in order, at every depth. -/
theorem ordered_of_admits (h : w.Admits c) {s : Signature} (hs : Catalog.lookup? c.name = some s) :
    (Json.obj c.arguments).Ordered := by
  refine ⟨h.ascend, Json.orderedMembers_iff.2 ?_⟩
  intro a ha
  obtain ⟨p, -, -, hadmits⟩ := admits_of_validate (h.allowed.validate hs) h.ascend ha
  rcases ParamKind.admits_cases hadmits with ⟨n, hrange, -, hvalue, -⟩ | ⟨t, -, hvalue, -⟩ <;>
  · rw [hvalue]
    trivial

/-- A call to a built-in function that may be made has arguments without floats, and is not nested
deep. -/
theorem states_of_admits (h : w.Admits c) {s : Signature} (hs : Catalog.lookup? c.name = some s) :
    States read? 2 c.write c := by
  obtain ⟨hfloat, hdepth⟩ := flat_of_validate (h.allowed.validate hs) h.ascend
  exact (states_write ⟨hfloat, ordered_of_admits h hs⟩).mono (by omega)

/-- Whatever its arguments, a call is written as a record of its name and these. -/
theorem exists_spells_write (c : ToolCall) : ∃ arguments, Spells c.write
    (.obj ([("name", .str (c.name.toList.map some)), ("arguments", arguments)].map keyed)) := by
  obtain ⟨arguments, harguments⟩ := exists_spells (.obj c.arguments)
  exact ⟨arguments,
    spells_record (.cons ⟨rfl, spells_string c.name.toList⟩ (.cons ⟨rfl, harguments⟩ .nil))⟩

theorem name_of_read? {t : Json.Tree} {depth : Nat} {c' : ToolCall} (ht : Spells c.write t)
    (h : read? depth t = some c') : c'.name = c.name := by
  obtain ⟨arguments, hspells⟩ := exists_spells_write c
  obtain rfl := Option.some.inj (ht.ofChars?.symm.trans hspells.ofChars?)
  by_cases hd : 1 < depth
  · rw [read?, record?_record (by simp) (by simp) _ hd] at h
    simp only [Option.bind_eq_bind, Option.bind_eq_some_iff] at h
    obtain ⟨name, hname, members, -, hc'⟩ := h
    obtain rfl := Option.some.inj hc'
    have hread : string? (depth - 1) (.str (c.name.toList.map some)) = some name := hname
    rw [string?, text?_map_some] at hread
    exact (Option.some.inj hread).symm
  · have henter : enter? depth = none := if_pos (by omega)
    simp [read?, record?, henter] at h

/-- What is read back from the text of a call that may be made may be made. -/
theorem allows_of_read? (h : w.Admits c) {t : Json.Tree} (ht : Spells c.write t) {depth : Nat}
    (hd : 2 < depth) {c' : ToolCall} (hc' : read? depth t = some c') : w.Allows c' := by
  cases hs : Catalog.lookup? c.name with
  | some s =>
    obtain ⟨t', ht', hread⟩ := states_of_admits h hs
    obtain rfl := Option.some.inj (ht.ofChars?.symm.trans ht'.ofChars?)
    obtain rfl := Option.some.inj (hc'.symm.trans (hread depth hd))
    exact h.allowed
  | none =>
    -- Of a declared function only the name counts.
    have hname := name_of_read? ht hc'
    have hallowed := h.allowed
    rw [Whitelist.Allows, Whitelist.check, hs] at hallowed
    rw [Whitelist.Allows, Whitelist.check, hname, hs]
    exact hallowed

/-- What is read back from the text in which calls are handed on may be made. -/
theorem allows_of_readAll? (h : ∀ c ∈ calls, w.Admits c) {calls' : List ToolCall}
    (hread : readAll? (writeAll calls) = some calls') : ∀ c ∈ calls', w.Allows c := by
  have hparts : ∃ ts, List.Forall₂ Spells (calls.map write) ts ∧
      ∀ depth, 2 < depth → ∀ calls', ts.mapM (read? depth) = some calls' →
        ∀ c ∈ calls', w.Allows c := by
    clear hread
    induction calls with
    | nil =>
      refine ⟨[], .nil, ?_⟩
      rintro depth - _ ⟨⟩
      exact nofun
    | cons c calls ih =>
      obtain ⟨hc, hrest⟩ := List.forall_mem_cons.1 h
      obtain ⟨arguments, hspells⟩ := exists_spells_write c
      obtain ⟨ts, hall, hreads⟩ := ih hrest
      refine ⟨_ :: ts, .cons hspells hall, ?_⟩
      intro depth hd calls' hread
      simp only [List.mapM_cons, Option.bind_eq_bind, Option.bind_eq_some_iff] at hread
      obtain ⟨d, hdread, ds, hdsread, hcons⟩ := hread
      obtain rfl : d :: ds = calls' := Option.some.inj hcons
      exact List.forall_mem_cons.2 ⟨allows_of_read? hc hspells hd hdread, hreads depth hd ds hdsread⟩
  obtain ⟨ts, hts, hreads⟩ := hparts
  have henter : enter? depthLimit = some (depthLimit - 1) := rfl
  rw [readAll?, writeAll, (spells_array hts).ofChars?, Option.bind_some, list?, henter,
    Option.bind_some] at hread
  exact hreads _ (by decide) calls' hread

end ToolCall

end ChatRelay
