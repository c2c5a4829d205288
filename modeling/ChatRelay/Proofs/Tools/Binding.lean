import ChatRelay.Proofs.Json.RoundTrip
import ChatRelay.Proofs.Tools.Expressions
import ChatRelay.Tools.CallSyntax

/-!
# Written calls are bound again

A call to a built-in function whose arguments pass the check of its signature is written as one
expression with all its arguments by name. Reading that line gives the call again if its integers
fit 64 bits with sign; the check admits integers without sign up to twice as large, and a call with
one of those is written, but not read (`readLine_write`).
-/

namespace ChatRelay

open CallExpr

/-! ### Values -/

/-- A value of a parameter's kind is an integer that is not negative, or a date in a string. -/
theorem ParamKind.admits_cases {kind : ParamKind} {v : Json} (h : kind.admits v = true) :
    (∃ n hrange, kind = .index ∧ v = .num (.int n hrange) ∧ 0 ≤ n) ∨
      ∃ s, kind = .date ∧ v = .str s ∧ Date.isDate s.toList = true := by
  cases kind with
  | index =>
    cases v with
    | num n =>
      cases n with
      | float x => cases h
      | int n hrange =>
        refine .inl ⟨n, hrange, rfl, rfl, ?_⟩
        by_contra hneg
        simp [admits, Json.index?, hneg] at h
    | _ => cases h
  | date =>
    cases v with
    | str s => exact .inr ⟨s, rfl, rfl, h⟩
    | _ => cases h

namespace Literal

/-- The literal that a value is written as, if it is an integer or a string. -/
def ofJson? : Json → Option Literal
  | .num (.int n _) => some (.int n)
  | .str s => some (.str s)
  | _ => none

/-- A value of a parameter's kind is written as a literal, and is what that literal stands for. -/
theorem ofJson?_of_admits {kind : ParamKind} {v : Json} (h : kind.admits v = true) :
    ∃ l, ofJson? v = some l ∧ l.toJson kind = .ok v ∧ ExpressionSyntax.valueText v = l.text := by
  rcases ParamKind.admits_cases h with ⟨n, hrange, rfl, rfl, hn⟩ | ⟨s, rfl, rfl, hdate⟩
  · exact ⟨.int n, rfl, dif_pos ⟨hn, hrange.2⟩, rfl⟩
  · exact ⟨.str s, rfl, if_pos hdate, rfl⟩

/-- The literal of a value fits if the value is no integer above the bound. -/
theorem fits_iff {kind : ParamKind} {v : Json} (h : kind.admits v = true) {l : Literal}
    (hl : ofJson? v = some l) : l.Fits ↔ ∀ n ∈ v.index?, n ≤ 0x7FFFFFFFFFFFFFFF := by
  rcases ParamKind.admits_cases h with ⟨n, hrange, -, rfl, hn⟩ | ⟨s, -, rfl, -⟩
  · obtain rfl : Literal.int n = l := Option.some.inj hl
    simp only [Fits, Json.index?, if_pos hn, Option.mem_some_iff, forall_eq']
    omega
  · obtain rfl : Literal.str s = l := Option.some.inj hl
    simp [Fits, Json.index?]

end Literal

/-! ### Signatures -/

namespace Signature

/-- A signature whose names can stand in an expression, and whose parameters have different ones. -/
structure WellNamed (s : Signature) : Prop where
  name : IsName s.name
  params : ∀ p ∈ s.params, IsName p.name
  nodup : (s.params.map (·.name)).Nodup

variable {s : Signature}

theorem param?_eq_some {name : String} {p : Param} (h : s.param? name = some p) :
    p ∈ s.params ∧ p.name = name := by
  rw [param?] at h
  exact ⟨List.mem_of_find?_eq_some h, by simpa using List.find?_some h⟩

/-- What is given for each parameter is found as the parameter is. -/
theorem lookup_params {α : Type} (value : Param → α) (name : String) :
    (s.params.map fun p => (p.name, value p)).lookup name = (s.param? name).map value := by
  rw [param?]
  induction s.params with
  | nil => rfl
  | cons p ps ih =>
    by_cases hp : p.name = name
    · simp [hp]
    · simp [List.lookup_cons, hp, ih, beq_eq_false_iff_ne.2 (Ne.symm hp)]

/-- Where no two parameters have one name, each is found by its own. -/
theorem param?_of_mem (hs : (s.params.map (·.name)).Nodup) {p : Param} (hp : p ∈ s.params) :
    s.param? p.name = some p := by
  obtain ⟨q, hq⟩ : ∃ q, s.param? p.name = some q :=
    Option.isSome_iff_exists.1 (List.find?_isSome.2 ⟨p, hp, beq_self_eq_true _⟩)
  obtain ⟨hmem, hname⟩ := param?_eq_some hq
  rw [hq, List.inj_on_of_nodup_map hs hmem hp hname]

/-- Arguments pass the check if none is unknown and each parameter has a value of its kind. -/
theorem validate_eq_ok {arguments : List (String × Json)} :
    s.validate arguments = .ok () ↔
      (∀ a ∈ arguments, (s.param? a.1).isSome = true) ∧
        ∀ p ∈ s.params, ∃ v, arguments.lookup p.name = some v ∧ p.kind.admits v = true := by
  have hcheck : ∀ p, s.checkParam arguments p = .ok () ↔
      ∃ v, arguments.lookup p.name = some v ∧ p.kind.admits v = true := by
    intro p
    rw [checkParam]
    cases arguments.lookup p.name with
    | none => simp
    | some v => by_cases hv : p.kind.admits v = true <;> simp [hv]
  have hall : ∀ ps : List Param, ps.forM (s.checkParam arguments) = .ok () ↔
      ∀ p ∈ ps, ∃ v, arguments.lookup p.name = some v ∧ p.kind.admits v = true := by
    intro ps
    induction ps with
    | nil => simp [pure, Except.pure]
    | cons p ps ih =>
      rw [List.forall_mem_cons, ← ih, ← hcheck]
      change (s.checkParam arguments p >>= fun _ => ps.forM (s.checkParam arguments)) = _ ↔ _
      cases s.checkParam arguments p <;> simp [Bind.bind, Except.bind]
  rw [validate]
  cases hunknown : arguments.find? fun a => (s.param? a.1).isNone with
  | some a =>
    have hnone := List.find?_some hunknown
    simp only [reduceCtorEq, false_iff, not_and]
    intro hknown
    have hsome := hknown a (List.mem_of_find?_eq_some hunknown)
    rw [Option.isNone_iff_eq_none] at hnone
    rw [hnone] at hsome
    cases hsome
  | none =>
    have hknown : ∀ a ∈ arguments, (s.param? a.1).isSome = true := by
      intro a ha
      have hnone := List.find?_eq_none.1 hunknown a ha
      simpa [Option.isSome_iff_ne_none] using hnone
    simp only [hall]
    exact (and_iff_right hknown).symm

/-- Named arguments are put in place one by one, each under the name of its parameter. -/
theorem WellNamed.bindArguments_named (h : s.WellNamed) {literal : Param → Literal}
    {value : Param → Json} {ps : List Param} (hps : ∀ p ∈ ps, p ∈ s.params)
    (hvalues : ∀ p ∈ ps, (literal p).toJson p.kind = .ok (value p))
    (hnodup : (ps.map (·.name)).Nodup) (index : Nat) (named : Bool) {bound : List (String × Json)}
    (hfree : ∀ p ∈ ps, bound.lookup p.name = none) :
    s.bindArguments index named bound (ps.map fun p => ⟨some p.name, literal p⟩) =
      .ok (ps.foldl (fun bound p => Json.insert p.name (value p) bound) bound) := by
  induction ps generalizing index named bound with
  | nil => rfl
  | cons p ps ih =>
    rw [List.forall_mem_cons] at hps hvalues hfree
    rw [List.map_cons, List.nodup_cons] at hnodup
    have htarget : s.target index named ⟨some p.name, literal p⟩ = .ok p := by
      rw [target]
      simp only [param?_of_mem h.nodup hps.1]
    -- The names are different, so the other parameters stay free.
    have hrest : ∀ q ∈ ps, (Json.insert p.name (value p) bound).lookup q.name = none := by
      intro q hq
      rw [Json.lookup_insert, if_neg, hfree.2 q hq]
      exact fun heq => hnodup.1 (heq ▸ List.mem_map_of_mem hq)
    rw [List.map_cons, bindArguments, htarget]
    simp only [Bind.bind, Except.bind, hfree.1, Option.isSome_none, Bool.false_eq_true, if_false,
      hvalues.1, Except.mapError]
    exact ih hps.2 hvalues.2 hnodup.2 _ _ hrest

end Signature

namespace Catalog

theorem wellNamed {s : Signature} (h : s ∈ all) : s.WellNamed := by
  simp only [all, List.mem_cons, List.not_mem_nil, or_false] at h
  rcases h with rfl | rfl <;> exact ⟨by decide +kernel, by decide +kernel, by decide⟩

theorem lookup?_eq_some {name : String} {s : Signature} (h : lookup? name = some s) :
    s ∈ all ∧ s.name = name := by
  rw [lookup?] at h
  exact ⟨List.mem_of_find?_eq_some h, by simpa using List.find?_some h⟩

end Catalog

/-! ### Calls -/

namespace ToolCall

/-- The argument for a parameter. -/
def value (c : ToolCall) (p : Param) : Json :=
  (c.arguments.lookup p.name).getD .null

/-- The literal that the argument for a parameter is written as. -/
def literal (c : ToolCall) (p : Param) : Literal :=
  (Literal.ofJson? (c.value p)).getD (.int 0)

/-- The integers among the arguments fit 64 bits with sign. -/
def FitsSigned (c : ToolCall) : Prop :=
  ∀ a ∈ c.arguments, ∀ n ∈ a.2.index?, n ≤ 0x7FFFFFFFFFFFFFFF

instance (c : ToolCall) : Decidable c.FitsSigned := by
  unfold FitsSigned
  infer_instance

variable {c : ToolCall} {s : Signature}

theorem lookup_of_validate (hv : s.validate c.arguments = .ok ()) {p : Param} (hp : p ∈ s.params) :
    c.arguments.lookup p.name = some (c.value p) ∧ p.kind.admits (c.value p) = true := by
  obtain ⟨v, hv, hadmits⟩ := (Signature.validate_eq_ok.1 hv).2 p hp
  have hvalue : c.value p = v := by rw [value, hv, Option.getD_some]
  rw [hvalue]
  exact ⟨hv, hadmits⟩

theorem literal_of_validate (hv : s.validate c.arguments = .ok ()) {p : Param}
    (hp : p ∈ s.params) :
    Literal.ofJson? (c.value p) = some (c.literal p) ∧
      (c.literal p).toJson p.kind = .ok (c.value p) ∧
        ExpressionSyntax.valueText (c.value p) = (c.literal p).text := by
  obtain ⟨l, hl, hjson, htext⟩ := Literal.ofJson?_of_admits (lookup_of_validate hv hp).2
  have hliteral : c.literal p = l := by rw [literal, hl, Option.getD_some]
  rw [hliteral]
  exact ⟨hl, hjson, htext⟩

/-- The arguments are those for the parameters, in the order of their names. -/
theorem ofMembers_value (hs : s.WellNamed) (hv : s.validate c.arguments = .ok ())
    (ho : Json.KeysAscend c.arguments) :
    Json.ofMembers (s.params.map fun p => (p.name, c.value p)) = c.arguments := by
  have hnodup : ((s.params.map fun p => (p.name, c.value p)).map (·.1)).Nodup := by
    rw [List.map_map]
    exact hs.nodup
  refine Json.eq_of_lookup_eq (Json.keysAscend_ofMembers _) ho fun name => ?_
  rw [Json.lookup_ofMembers hnodup, Signature.lookup_params]
  cases hp : s.param? name with
  | some p =>
    obtain ⟨hmem, rfl⟩ := Signature.param?_eq_some hp
    exact (lookup_of_validate hv hmem).1.symm
  | none =>
    -- An argument of that name would not have passed the check.
    cases hlookup : c.arguments.lookup name with
    | none => rfl
    | some v =>
      have hknown := (Signature.validate_eq_ok.1 hv).1 _ (Json.mem_of_lookup hlookup)
      rw [hp] at hknown
      cases hknown

/-- Every argument is of a parameter's kind. -/
theorem admits_of_validate (hv : s.validate c.arguments = .ok ())
    (ho : Json.KeysAscend c.arguments) {a : String × Json} (ha : a ∈ c.arguments) :
    ∃ p ∈ s.params, a.2 = c.value p ∧ p.kind.admits a.2 = true := by
  obtain ⟨p, hp⟩ := Option.isSome_iff_exists.1 ((Signature.validate_eq_ok.1 hv).1 a ha)
  obtain ⟨hmem, hname⟩ := Signature.param?_eq_some hp
  obtain ⟨hlookup, hadmits⟩ := lookup_of_validate hv hmem
  have hvalue : a.2 = c.value p := by
    rw [hname, Json.lookup_of_mem ho ha] at hlookup
    exact Option.some.inj hlookup
  exact ⟨p, hmem, hvalue, hvalue ▸ hadmits⟩

/-- The arguments of a built-in function are integers and strings, without nesting. -/
theorem flat_of_validate (hv : s.validate c.arguments = .ok ())
    (ho : Json.KeysAscend c.arguments) :
    (Json.obj c.arguments).FloatFree ∧ (Json.obj c.arguments).depth ≤ 1 := by
  have hflat : ∀ a ∈ c.arguments, a.2.FloatFree ∧ a.2.depth = 0 := by
    intro a ha
    obtain ⟨p, -, -, hadmits⟩ := admits_of_validate hv ho ha
    rcases ParamKind.admits_cases hadmits with ⟨n, hrange, -, hvalue, -⟩ | ⟨t, -, hvalue, -⟩ <;>
    · rw [hvalue]
      exact ⟨trivial, rfl⟩
  refine ⟨Json.floatFreeMembers_iff.2 fun a ha => (hflat a ha).1, ?_⟩
  have hdepth : Json.depthMembers c.arguments ≤ 0 :=
    Json.depthMembers_le_iff.2 fun a ha => (hflat a ha).2.le
  rw [Json.depth]
  omega

/-- The integers of a call fit if the literals that it is written with do. -/
theorem fitsSigned_iff (hv : s.validate c.arguments = .ok ()) (ho : Json.KeysAscend c.arguments) :
    c.FitsSigned ↔ ∀ p ∈ s.params, (c.literal p).Fits := by
  constructor
  · intro h p hp
    obtain ⟨hlookup, hadmits⟩ := lookup_of_validate hv hp
    have hmem := Json.mem_of_lookup hlookup
    exact (Literal.fits_iff hadmits (literal_of_validate hv hp).1).2 fun n hn => h _ hmem n hn
  · intro h a ha n hn
    obtain ⟨p, hmem, hvalue, hadmits⟩ := admits_of_validate hv ho ha
    rw [hvalue] at hadmits hn
    exact (Literal.fits_iff hadmits (literal_of_validate hv hmem).1).1 (h p hmem) n hn

end ToolCall

/-! ### Lines -/

namespace ExpressionSyntax

variable {c : ToolCall} {s : Signature}

/-- A call that passes the check of its signature is written with all parameters in order. -/
theorem write_eq (hs : Catalog.lookup? c.name = some s) (hv : s.validate c.arguments = .ok ()) :
    write c = exprText c.name (s.params.map fun p => (p.name, c.literal p)) := by
  have hwritten : writtenArguments c = s.params.map fun p => (p.name, c.value p) := by
    rw [writtenArguments]
    simp only [hs]
    rw [← List.filterMap_eq_map, List.filterMap_congr]
    intro p hp
    rw [(ToolCall.lookup_of_validate hv hp).1]
    rfl
  have htexts : (writtenArguments c).map (fun a => argumentText a.1 a.2) =
      (s.params.map fun p => (p.name, c.literal p)).map namedText := by
    rw [hwritten, List.map_map, List.map_map, List.map_congr_left]
    intro p hp
    simp only [Function.comp_apply, argumentText, namedText,
      (ToolCall.literal_of_validate hv hp).2.2]
  rw [write, exprText, htexts]

/-- The literals of a call are bound to its signature again. -/
theorem bind_literals (hs : Catalog.lookup? c.name = some s)
    (hv : s.validate c.arguments = .ok ()) (ho : Json.KeysAscend c.arguments) :
    s.bind ⟨c.name, s.params.map fun p => ⟨some p.name, c.literal p⟩⟩ = .ok c := by
  obtain ⟨hall, hname⟩ := Catalog.lookup?_eq_some hs
  have hnamed := Catalog.wellNamed hall
  have hbound := hnamed.bindArguments_named (fun _ hp => hp)
    (fun p hp => (ToolCall.literal_of_validate hv hp).2.1) hnamed.nodup 0 false
    (fun p _ => List.lookup_nil)
  have hmembers : s.params.foldl (fun bound p => Json.insert p.name (c.value p) bound) [] =
      c.arguments := by
    rw [← ToolCall.ofMembers_value hnamed hv ho, Json.ofMembers, List.foldl_map]
  have hcomplete : (s.params.find? fun p => (c.arguments.lookup p.name).isNone) = none := by
    rw [List.find?_eq_none]
    intro p hp
    simp [(ToolCall.lookup_of_validate hv hp).1]
  rw [Signature.bind]
  simp only [hbound, hmembers, Bind.bind, Except.bind, hcomplete, hname]

/-- A line with a written call is read as that call if its integers fit 64 bits with sign, and is
refused otherwise. -/
theorem readLine_write (hs : Catalog.lookup? c.name = some s)
    (hv : s.validate c.arguments = .ok ()) (ho : Json.KeysAscend c.arguments) :
    (c.FitsSigned → readLine (write c) = .ok c) ∧
      (¬ c.FitsSigned → ∃ fault, readLine (write c) = .error fault) := by
  obtain ⟨hall, hname⟩ := Catalog.lookup?_eq_some hs
  have hnamed := Catalog.wellNamed hall
  have hparse := parse_exprText (hname ▸ hnamed.name)
    (show ∀ a ∈ s.params.map fun p => (p.name, c.literal p), IsName a.1 by
      simpa using hnamed.params)
  rw [← write_eq hs hv] at hparse
  rw [readLine, hparse, ToolCall.fitsSigned_iff hv ho]
  constructor
  · intro hfits
    rw [mapM_namedArgument (by simpa using hfits), List.map_map]
    simp only [Except.map, hs]
    rw [show ((fun a : String × Literal => (⟨some a.1, a.2⟩ : Argument)) ∘
      fun p : Param => (p.name, c.literal p)) = fun p => ⟨some p.name, c.literal p⟩ from rfl,
      bind_literals hs hv ho]
    rfl
  · intro hfits
    obtain ⟨fault, hfault⟩ := mapM_namedArgument_error
      (show ∃ a ∈ s.params.map fun p => (p.name, c.literal p), ¬ a.2.Fits by simpa using hfits)
    rw [hfault]
    exact ⟨_, rfl⟩

theorem newline_not_mem_write (hs : Catalog.lookup? c.name = some s)
    (hv : s.validate c.arguments = .ok ()) : '\n' ∉ write c := by
  obtain ⟨hall, hname⟩ := Catalog.lookup?_eq_some hs
  have hnamed := Catalog.wellNamed hall
  rw [write_eq hs hv]
  exact newline_not_mem_exprText (hname ▸ hnamed.name) (by simpa using hnamed.params)

/-- A written call is the only line of its text. -/
theorem readLines_write (hs : Catalog.lookup? c.name = some s)
    (hv : s.validate c.arguments = .ok ()) :
    readLines (write c) = [(write c, readLine (write c))] := by
  obtain ⟨hall, hname⟩ := Catalog.lookup?_eq_some hs
  have htight : Text.Tight (write c) := by
    rw [write_eq hs hv]
    exact tight_exprText (hname ▸ (Catalog.wellNamed hall).name) _
  rw [readLines, Text.contentLines_of_line (newline_not_mem_write hs hv) htight (by simp [write]),
    List.map_singleton]

end ExpressionSyntax

/-- A call to a built-in function may be made only if its arguments pass the check. -/
theorem Whitelist.Allows.validate {w : Whitelist} {c : ToolCall} {s : Signature}
    (h : w.Allows c) (hs : Catalog.lookup? c.name = some s) : s.validate c.arguments = .ok () := by
  rw [Allows, check, hs] at h
  change (s.validate c.arguments).mapError CallRefused.arguments = .ok () at h
  cases hv : s.validate c.arguments with
  | ok u => rfl
  | error e =>
    rw [hv] at h
    cases h

namespace CallSyntax

theorem parse_write_of_fitsSigned (w : Whitelist) {c : ToolCall} {s : Signature}
    (hs : Catalog.lookup? c.name = some s) (hv : s.validate c.arguments = .ok ())
    (ho : Json.KeysAscend c.arguments) (hfits : c.FitsSigned) :
    expression.parse w (expression.write c) = .ok [c] := by
  rw [parse, readings, write, ExpressionSyntax.readLines_write hs hv, List.map_singleton,
    (ExpressionSyntax.readLine_write hs hv ho).1 hfits]
  rfl

/-- A written call to a built-in function is read as that call and no other, under any whitelist, if
its integers fit 64 bits with sign; otherwise nothing is read. -/
theorem parse_write_expression (w : Whitelist) {c : ToolCall} {s : Signature}
    (hs : Catalog.lookup? c.name = some s) (hv : s.validate c.arguments = .ok ())
    (ho : Json.KeysAscend c.arguments) :
    expression.parse w (expression.write c) =
      if c.FitsSigned then .ok [c] else .error ⟨String.ofList (expression.write c)⟩ := by
  by_cases hfits : c.FitsSigned
  · rw [if_pos hfits, parse_write_of_fitsSigned w hs hv ho hfits]
  · obtain ⟨fault, hfault⟩ := (ExpressionSyntax.readLine_write hs hv ho).2 hfits
    rw [if_neg hfits, parse, readings, write, ExpressionSyntax.readLines_write hs hv,
      List.map_singleton, hfault]
    rfl

end CallSyntax

/-- A call for the newest message of the channel of that number. -/
def ToolCall.newest (channel : Nat) (h : Json.InRange channel) : ToolCall :=
  ⟨"getRecentChannelMessages",
    [("channelIndex", .num (.int channel h)), ("limit", .num (.int 1 (by decide)))]⟩

/-- The largest number of a channel whose call is read again. -/
theorem CallSyntax.parse_write_expression_largest :
    Catalog.lookup? (ToolCall.newest 0x7FFFFFFFFFFFFFFF (by decide)).name =
        some Catalog.recentMessages ∧
      expression.parse ⟨[]⟩ (expression.write (.newest 0x7FFFFFFFFFFFFFFF (by decide))) =
        .ok [.newest 0x7FFFFFFFFFFFFFFF (by decide)] := by
  have hs : Catalog.lookup? (ToolCall.newest 0x7FFFFFFFFFFFFFFF (by decide)).name =
      some Catalog.recentMessages := by decide +kernel
  have hread := parse_write_expression ⟨[]⟩ hs (by decide +kernel) (by decide +kernel)
  exact ⟨hs, hread.trans (if_pos (by decide +kernel))⟩

/-- The call for the next number passes the check of the signature and is written, but not read. -/
theorem CallSyntax.parse_write_expression_beyond :
    Catalog.lookup? (ToolCall.newest 0x8000000000000000 (by decide)).name =
        some Catalog.recentMessages ∧
      Catalog.recentMessages.validate (ToolCall.newest 0x8000000000000000 (by decide)).arguments =
        .ok () ∧
      Json.KeysAscend (ToolCall.newest 0x8000000000000000 (by decide)).arguments ∧
      expression.parse ⟨[]⟩ (expression.write (.newest 0x8000000000000000 (by decide))) =
        .error ⟨"getRecentChannelMessages(channelIndex=9223372036854775808, limit=1)"⟩ := by
  refine ⟨by decide +kernel, by decide +kernel, by decide +kernel, by decide +kernel⟩

end ChatRelay
