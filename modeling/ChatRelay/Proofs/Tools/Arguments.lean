import ChatRelay.Proofs.Tools.Allowed

/-!
# The arguments that a signature takes

A signature takes values without names for its first parameters, in their order, and after these
values with the names of the others in any order, so that each parameter is given one value, which
suits it (`Signature.Takes`). Binding does just that: it gives a call if and only if the signature
takes the arguments, and the call holds what was given and nothing else (`bind_eq_ok_iff`). Which of
the named arguments comes first makes no difference, and neither does it whether the last value
without a name has one (`bind_takes`).
-/

namespace ChatRelay

/-! ### Values -/

namespace Literal

/-- Whether a literal can be the value of a parameter of that kind: an integer that is not negative,
or a date in quotes. An integer of 64 bits with sign is always in range. -/
def Suits : ParamKind → Literal → Prop
  | .index, int n => 0 ≤ n ∧ Json.InRange n
  | .date, str s => Date.isDate s.toList = true
  | .index, str _ | .date, int _ => False

theorem toJson_eq_ok {kind : ParamKind} {l : Literal} {v : Json} :
    l.toJson kind = .ok v ↔ l.Suits kind ∧ v = l.value := by
  cases kind with
  | index =>
    cases l with
    | str s => simp [toJson, Suits]
    | int n =>
      rw [toJson, Suits]
      split
      · next hrange =>
        have hin : Json.InRange n := ⟨by omega, hrange.2⟩
        rw [value_int hin, Except.ok.injEq, eq_comm]
        exact (and_iff_right ⟨hrange.1, hin⟩).symm
      · next hrange =>
        have hnot : ¬ (0 ≤ n ∧ Json.InRange n) := fun h => hrange ⟨h.1, h.2.2⟩
        simp [hnot]
  | date =>
    cases l with
    | int n => simp [toJson, Suits]
    | str s =>
      rw [toJson, Suits, value]
      split
      · next hdate => simp [hdate, eq_comm]
      · next hdate => simp [hdate]

end Literal

/-! ### Arguments -/

namespace Argument

/-- A value without a name. -/
def positional (l : Literal) : Argument := ⟨none, l⟩

/-- A value with the name of its parameter. -/
def keyword (m : Param × Literal) : Argument := ⟨some m.1.name, m.2⟩

/-- The value of an argument without a name. -/
def unnamed? (a : Argument) : Option Literal :=
  if a.name.isSome then none else some a.value

/-- The arguments with names have changed places among themselves, and those without are where they
were. -/
structure Shuffled (as bs : List Argument) : Prop where
  unnamed : as.map unnamed? = bs.map unnamed?
  named : (as.filter (·.name.isSome)).Perm (bs.filter (·.name.isSome))

variable {ls ls' : List Literal} {as bs : List Argument}

theorem unnamed?_eq_some {a : Argument} {l : Literal} :
    a.unnamed? = some l ↔ a = positional l := by
  obtain ⟨name, value⟩ := a
  cases name <;> simp [unnamed?, positional]

theorem unnamed?_eq_none {a : Argument} : a.unnamed? = none ↔ a.name.isSome = true := by
  rw [unnamed?]
  split <;> simp [*]

/-- Values without names are the same arguments if they are the same values. -/
theorem eq_map_positional (h : as.map unnamed? = ls.map some) : as = ls.map positional := by
  induction as generalizing ls with
  | nil =>
    obtain rfl := List.map_eq_nil_iff.1 h.symm
    rfl
  | cons a as ih =>
    cases ls with
    | nil => cases h
    | cons l ls =>
      obtain ⟨ha, has⟩ := List.cons.inj h
      rw [List.map_cons, unnamed?_eq_some.1 ha, ih has]

theorem Shuffled.symm (h : Shuffled as bs) : Shuffled bs as :=
  ⟨h.unnamed.symm, h.named.symm⟩

/-- Where the first name comes is no matter of choice. -/
theorem positional_append_inj (has : ∀ a ∈ as.head?, a.name.isSome = true)
    (hbs : ∀ b ∈ bs.head?, b.name.isSome = true)
    (h : ls.map positional ++ as = ls'.map positional ++ bs) : ls = ls' ∧ as = bs := by
  induction ls generalizing ls' with
  | nil =>
    cases ls' with
    | nil => exact ⟨rfl, h⟩
    | cons l' ls' =>
      rw [List.map_nil, List.nil_append] at h
      exact absurd (has (positional l') (h ▸ rfl)) Bool.false_ne_true
  | cons l ls ih =>
    cases ls' with
    | nil =>
      rw [List.map_nil, List.nil_append] at h
      exact absurd (hbs (positional l) (h ▸ rfl)) Bool.false_ne_true
    | cons l' ls' =>
      obtain ⟨hl, hrest⟩ := List.cons.inj h
      obtain ⟨rfl, rfl⟩ := ih hrest
      exact ⟨congrArg (· :: ls) (congrArg value hl), rfl⟩

/-- The values without names at the start, and what comes after them. -/
theorem exists_positional_append (as : List Argument) : ∃ (ls : List Literal) (bs : List Argument),
    as = ls.map positional ++ bs ∧ ∀ b ∈ bs.head?, b.name.isSome = true := by
  induction as with
  | nil => exact ⟨[], [], rfl, nofun⟩
  | cons a as ih =>
    cases hname : a.name with
    | some name =>
      refine ⟨[], a :: as, rfl, ?_⟩
      rintro _ ⟨⟩
      rw [hname]
      rfl
    | none =>
      obtain ⟨ls, bs, rfl, hbs⟩ := ih
      refine ⟨a.value :: ls, bs, ?_, hbs⟩
      rw [List.map_cons, positional, ← hname]
      rfl

theorem head?_keyword (ms : List (Param × Literal)) :
    ∀ a ∈ (ms.map keyword).head?, a.name.isSome = true := by
  cases ms with
  | nil => exact nofun
  | cons m ms =>
    rintro _ ⟨⟩
    rfl

end Argument

namespace Signature

open Argument

/-- What is given for which parameter: the values without names are for the first ones. -/
def given (s : Signature) (values : List Literal) (keywords : List (Param × Literal)) :
    List (Param × Literal) :=
  s.params.zip values ++ keywords

/-- Arguments that a signature takes. -/
structure Takes (s : Signature) (as : List Argument) (values : List Literal)
    (keywords : List (Param × Literal)) : Prop where
  /-- First come the values without names, then those with the names of parameters. -/
  arguments : as = values.map positional ++ keywords.map keyword
  /-- There is a parameter for each value without a name. -/
  arity : values.length ≤ s.params.length
  /-- Every parameter is given once, and no other is. -/
  once : ((s.given values keywords).map (·.1)).Perm s.params
  /-- Every value suits its parameter. -/
  suits : ∀ m ∈ s.given values keywords, m.2.Suits m.1.kind

/-- The call that holds what is given, and nothing else. -/
structure Yields (s : Signature) (ms : List (Param × Literal)) (c : ToolCall) : Prop where
  name : c.name = s.name
  ascend : Json.KeysAscend c.arguments
  arguments : c.arguments.Perm (ms.map fun m => (m.1.name, m.2.value))

/-- The last of the values without names at the start that there is a parameter for has got its
name. -/
inductive Names (s : Signature) : List Argument → List Argument → Prop
  | last {values : List Literal} {l : Literal} {p : Param} {rest : List Argument}
      (hp : s.params[values.length]? = some p)
      (hlast : (∀ a ∈ rest.head?, a.name.isSome = true) ∨
        s.params[values.length + 1]? = none) :
      Names s (values.map positional ++ positional l :: rest)
        (values.map positional ++ keyword (p, l) :: rest)

variable {s : Signature}

/-! ### The parameters that arguments are for -/

/-- The arguments are for these parameters, one after the other. -/
inductive Targets (s : Signature) : Nat → Bool → List Argument → List (Param × Literal) → Prop
  | nil {index : Nat} {named : Bool} : Targets s index named [] []
  | cons {index : Nat} {named : Bool} {a : Argument} {p : Param} {as : List Argument}
      {ms : List (Param × Literal)} (hp : s.target index named a = .ok p)
      (h : Targets s (index + 1) (named || a.name.isSome) as ms) :
      Targets s index named (a :: as) ((p, a.value) :: ms)

theorem Targets.mem {index : Nat} {named : Bool} {as : List Argument}
    {ms : List (Param × Literal)} (h : s.Targets index named as ms) : ∀ m ∈ ms, m.1 ∈ s.params := by
  induction h with
  | nil => exact nofun
  | cons hp _ ih => exact List.forall_mem_cons.2 ⟨mem_of_target hp, ih⟩

theorem target_named {name : String} {l : Literal} {index : Nat} {named : Bool} {p : Param} :
    s.target index named ⟨some name, l⟩ = .ok p ↔ s.param? name = some p := by
  unfold target
  cases hp : s.param? name <;> simp [hp]

theorem target_unnamed {l : Literal} {index : Nat} {named : Bool} {p : Param} :
    s.target index named ⟨none, l⟩ = .ok p ↔ named = false ∧ s.params[index]? = some p := by
  unfold target
  cases named with
  | true => simp
  | false => cases s.params[index]? <;> simp

/-- After an argument with a name all have names, those of parameters. -/
theorem targets_named_iff (hs : (s.params.map (·.name)).Nodup) {index : Nat} {as : List Argument}
    {ms : List (Param × Literal)} :
    s.Targets index true as ms ↔ as = ms.map keyword ∧ ∀ m ∈ ms, m.1 ∈ s.params := by
  constructor
  · intro h
    refine ⟨?_, h.mem⟩
    induction as generalizing index ms with
    | nil =>
      cases h
      rfl
    | cons a as ih =>
      obtain ⟨name, l⟩ := a
      cases h with
      | cons hp h =>
        cases name with
        | none => cases (target_unnamed.1 hp).1
        | some name =>
          rw [List.map_cons, ← ih h, keyword, (param?_eq_some (target_named.1 hp)).2]
  · rintro ⟨rfl, hmem⟩
    induction ms generalizing index with
    | nil => exact .nil
    | cons m ms ih =>
      obtain ⟨hm, hrest⟩ := List.forall_mem_cons.1 hmem
      exact .cons (target_named.2 (param?_of_mem hs hm)) (ih hrest)

/-- At the start values without names are for the parameters from the first that is left. -/
theorem targets_unnamed_iff (hs : (s.params.map (·.name)).Nodup) {index : Nat}
    (hindex : index ≤ s.params.length) {as : List Argument} {ms : List (Param × Literal)} :
    s.Targets index false as ms ↔ ∃ (values : List Literal) (keywords : List (Param × Literal)),
      as = values.map positional ++ keywords.map keyword ∧
        index + values.length ≤ s.params.length ∧ (∀ m ∈ keywords, m.1 ∈ s.params) ∧
          ms = (s.params.drop index).zip values ++ keywords := by
  constructor
  · intro h
    induction as generalizing index ms with
    | nil =>
      cases h
      exact ⟨[], [], rfl, hindex, nofun, by simp⟩
    | cons a as ih =>
      obtain ⟨name, l⟩ := a
      cases h with
      | @cons _ _ _ p _ ms hp h =>
        cases name with
        | none =>
          obtain ⟨hlt, rfl⟩ := List.getElem?_eq_some_iff.1 (target_unnamed.1 hp).2
          obtain ⟨values, keywords, rfl, hlength, hmem, rfl⟩ := ih hlt h
          refine ⟨l :: values, keywords, rfl, by rw [List.length_cons]; omega, hmem, ?_⟩
          rw [List.drop_eq_getElem_cons hlt]
          rfl
        | some name =>
          obtain ⟨hparam, rfl⟩ := param?_eq_some (target_named.1 hp)
          obtain ⟨rfl, hmem⟩ := (targets_named_iff hs).1 h
          exact ⟨[], (p, l) :: ms, rfl, hindex, List.forall_mem_cons.2 ⟨hparam, hmem⟩, by simp⟩
  · rintro ⟨values, keywords, rfl, hlength, hmem, rfl⟩
    induction values generalizing index with
    | nil =>
      rw [List.zip_nil_right]
      cases keywords with
      | nil => exact .nil
      | cons m keywords =>
        obtain ⟨hm, hrest⟩ := List.forall_mem_cons.1 hmem
        exact .cons (target_named.2 (param?_of_mem hs hm)) ((targets_named_iff hs).2 ⟨rfl, hrest⟩)
    | cons l values ih =>
      rw [List.length_cons] at hlength
      have hlt : index < s.params.length := by omega
      rw [List.drop_eq_getElem_cons hlt]
      exact .cons (target_unnamed.2 ⟨rfl, List.getElem?_eq_getElem hlt⟩) (ih hlt (by omega))

/-! ### Binding -/

/-- Nothing is given twice, and nothing that is bound already is given. -/
def Fresh (bound : List (String × Json)) (ms : List (Param × Literal)) : Prop :=
  (ms.map (·.1.name)).Nodup ∧ ∀ m ∈ ms, bound.lookup m.1.name = none

theorem fresh_cons {bound : List (String × Json)} {m : Param × Literal}
    {ms : List (Param × Literal)} (v : Json) :
    Fresh bound (m :: ms) ↔
      bound.lookup m.1.name = none ∧ Fresh (Json.insert m.1.name v bound) ms := by
  simp only [Fresh, List.map_cons, List.nodup_cons, List.forall_mem_cons,
    Json.lookup_insert_eq_none, List.mem_map, not_exists, not_and]
  constructor
  · rintro ⟨⟨hnot, hnodup⟩, hm, hrest⟩
    exact ⟨hm, hnodup, fun n hn => ⟨hnot n hn, hrest n hn⟩⟩
  · rintro ⟨hm, hnodup, hrest⟩
    exact ⟨⟨fun n hn => (hrest n hn).1, hnodup⟩, hm, fun n hn => (hrest n hn).2⟩

/-- Arguments are bound if they are for parameters that are all different and not bound yet, and
their values suit them. -/
theorem bindArguments_eq_ok_iff {as : List Argument} {index : Nat} {named : Bool}
    {bound result : List (String × Json)} :
    s.bindArguments index named bound as = .ok result ↔
      ∃ ms, s.Targets index named as ms ∧ Fresh bound ms ∧ (∀ m ∈ ms, m.2.Suits m.1.kind) ∧
        result = ms.foldl (fun bound m => Json.insert m.1.name m.2.value bound) bound := by
  induction as generalizing index named bound with
  | nil =>
    constructor
    · intro h
      exact ⟨[], .nil, ⟨List.nodup_nil, nofun⟩, nofun, (Except.ok.inj h).symm⟩
    · rintro ⟨ms, htargets, -, -, rfl⟩
      cases htargets
      rfl
  | cons a as ih =>
    constructor
    · intro h
      obtain ⟨p, htarget, h⟩ := ok_of_bind h
      split at h
      · cases h
      · next hfree =>
        obtain ⟨v, hvalue, h⟩ := ok_of_bind h
        obtain ⟨hsuits, rfl⟩ := Literal.toJson_eq_ok.1 (ok_of_mapError hvalue)
        obtain ⟨ms, htargets, hfresh, hall, rfl⟩ := ih.1 h
        rw [Option.not_isSome_iff_eq_none] at hfree
        exact ⟨(p, a.value) :: ms, .cons htarget htargets, (fresh_cons _).2 ⟨hfree, hfresh⟩,
          List.forall_mem_cons.2 ⟨hsuits, hall⟩, rfl⟩
    · rintro ⟨ms, htargets, hfresh, hall, rfl⟩
      cases htargets with
      | @cons _ _ _ p _ ms htarget htargets =>
        obtain ⟨hfree, hfresh⟩ := (fresh_cons a.value.value).1 hfresh
        obtain ⟨hsuits, hall⟩ := List.forall_mem_cons.1 hall
        rw [bindArguments, htarget]
        simp only [Bind.bind, Except.bind, hfree, Option.isSome_none, Bool.false_eq_true, if_false,
          Literal.toJson_eq_ok.2 ⟨hsuits, rfl⟩, Except.mapError]
        exact ih.2 ⟨ms, htargets, hfresh, hall, rfl⟩

/-- What is given is put in place, and nothing else is. -/
theorem foldl_insert_perm {ms : List (Param × Literal)} (h : (ms.map (·.1.name)).Nodup) :
    Json.KeysAscend (ms.foldl (fun bound m => Json.insert m.1.name m.2.value bound) []) ∧
      (ms.foldl (fun bound m => Json.insert m.1.name m.2.value bound) []).Perm
        (ms.map fun m => (m.1.name, m.2.value)) := by
  have hfold : ms.foldl (fun bound m => Json.insert m.1.name m.2.value bound) [] =
      Json.ofMembers (ms.map fun m => (m.1.name, m.2.value)) := by
    rw [Json.ofMembers, List.foldl_map]
  rw [hfold]
  refine ⟨Json.keysAscend_ofMembers _, Json.ofMembers_perm ?_⟩
  rw [List.map_map]
  exact h

/-- Nothing is missing if what is bound was given for all parameters. -/
theorem find?_missing_eq_none (hs : (s.params.map (·.name)).Nodup) {ms : List (Param × Literal)}
    (hmem : ∀ m ∈ ms, m.1 ∈ s.params) (hnodup : (ms.map (·.1.name)).Nodup)
    {bound : List (String × Json)}
    (hbound : bound.Perm (ms.map fun m => (m.1.name, m.2.value))) :
    (s.params.find? fun p => (bound.lookup p.name).isNone) = none ↔
      (ms.map (·.1)).Perm s.params := by
  have hgiven : ∀ p ∈ s.params,
      (bound.lookup p.name).isNone = true ↔ p ∉ ms.map (·.1) := by
    intro p hp
    rw [Option.isNone_iff_eq_none, List.lookup_eq_none_iff]
    constructor
    · intro hnone hpm
      obtain ⟨m, hm, rfl⟩ := List.mem_map.1 hpm
      have hmap := List.mem_map_of_mem (f := fun m : Param × Literal => (m.1.name, m.2.value)) hm
      have hne := hnone _ (hbound.mem_iff.2 hmap)
      simp at hne
    · intro hpm a ha
      obtain ⟨m, hm, rfl⟩ := List.mem_map.1 (hbound.mem_iff.1 ha)
      rw [bne_iff_ne]
      intro hname
      -- No two parameters have one name.
      obtain rfl : p = m.1 := List.inj_on_of_nodup_map hs hp (hmem m hm) hname
      exact hpm (List.mem_map_of_mem hm)
  have hparams : (ms.map (·.1)).Nodup := by
    refine List.Nodup.of_map (·.name) ?_
    rwa [List.map_map]
  rw [List.find?_eq_none, List.perm_ext_iff_of_nodup hparams (.of_map _ hs)]
  constructor
  · intro hall p
    constructor
    · intro hp
      obtain ⟨m, hm, rfl⟩ := List.mem_map.1 hp
      exact hmem m hm
    · intro hp
      by_contra hnot
      exact hall p hp ((hgiven p hp).2 hnot)
  · intro hiff p hp hnone
    exact (hgiven p hp).1 hnone ((hiff p).2 hp)

theorem Takes.nodup (hs : (s.params.map (·.name)).Nodup) {as : List Argument}
    {values : List Literal} {keywords : List (Param × Literal)} (h : s.Takes as values keywords) :
    ((s.given values keywords).map (·.1.name)).Nodup := by
  have hperm := h.once.map Param.name
  rw [List.map_map] at hperm
  exact hperm.nodup_iff.2 hs

/-- Binding gives a call if and only if the signature takes the arguments, and the call holds what is
given. -/
theorem bind_eq_ok_iff (hs : (s.params.map (·.name)).Nodup) {function : String}
    {as : List Argument} {c : ToolCall} :
    s.bind ⟨function, as⟩ = .ok c ↔ ∃ values keywords,
      s.Takes as values keywords ∧ s.Yields (s.given values keywords) c := by
  constructor
  · intro h
    obtain ⟨result, hbind, hcomplete⟩ := ok_of_bind h
    obtain ⟨ms, htargets, hfresh, hall, rfl⟩ := bindArguments_eq_ok_iff.1 hbind
    obtain ⟨hascend, hperm⟩ := foldl_insert_perm hfresh.1
    split at hcomplete
    · cases hcomplete
    · next hnone =>
      obtain rfl := Except.ok.inj hcomplete
      have honce := (find?_missing_eq_none hs htargets.mem hfresh.1 hperm).1 hnone
      obtain ⟨values, keywords, has, harity, -, rfl⟩ :=
        (targets_unnamed_iff hs (Nat.zero_le _)).1 htargets
      rw [Nat.zero_add] at harity
      exact ⟨values, keywords, ⟨has, harity, honce, hall⟩, ⟨rfl, hascend, hperm⟩⟩
  · rintro ⟨values, keywords, htakes, hyields⟩
    have hmem : ∀ m ∈ s.given values keywords, m.1 ∈ s.params :=
      fun m hm => htakes.once.mem_iff.1 (List.mem_map_of_mem hm)
    have hnodup := htakes.nodup hs
    obtain ⟨hascend, hperm⟩ := foldl_insert_perm hnodup
    have htargets : s.Targets 0 false as (s.given values keywords) :=
      (targets_unnamed_iff hs (Nat.zero_le _)).2 ⟨values, keywords, htakes.arguments,
        by have := htakes.arity; omega, fun m hm => hmem m (List.mem_append_right _ hm), rfl⟩
    have hbind := bindArguments_eq_ok_iff.2
      ⟨_, htargets, ⟨hnodup, fun _ _ => List.lookup_nil⟩, htakes.suits, rfl⟩
    have hcomplete := (find?_missing_eq_none hs hmem hnodup hperm).2 htakes.once
    have hcall := Json.eq_of_perm hascend hyields.ascend (hperm.trans hyields.arguments.symm)
    rw [hcall] at hbind hcomplete
    rw [bind, hbind]
    simp only [Bind.bind, Except.bind, hcomplete, ← hyields.name]

/-! ### Other arguments for the same call -/

/-- What is given by name may be given in another order. -/
theorem Takes.perm {as : List Argument} {values : List Literal}
    {keywords others : List (Param × Literal)} (h : s.Takes as values keywords)
    (hperm : others.Perm keywords) :
    s.Takes (values.map positional ++ others.map keyword) values others := by
  have hgiven : (s.given values others).Perm (s.given values keywords) := hperm.append_left _
  exact ⟨rfl, h.arity, (hgiven.map _).trans h.once, fun m hm => h.suits m (hgiven.mem_iff.1 hm)⟩

/-- Arguments that change places with each other are taken as before, and the same is given. -/
theorem Takes.shuffled {as bs : List Argument} {values : List Literal}
    {keywords : List (Param × Literal)} (h : s.Takes as values keywords)
    (hshuffled : Shuffled as bs) :
    ∃ others, others.Perm keywords ∧ s.Takes bs values others := by
  obtain ⟨hunnamed, hnamed⟩ := hshuffled
  have hvalues : (values.map positional).map unnamed? = values.map some := List.map_map
  rw [h.arguments, List.map_append, hvalues] at hunnamed
  obtain ⟨front, back, rfl, hfront, hback⟩ := List.map_eq_append_iff.1 hunnamed.symm
  obtain rfl := eq_map_positional hfront
  have hall : ∀ b ∈ back, b.name.isSome = true := by
    intro b hb
    obtain ⟨a, ha, hab⟩ := List.mem_map.1 (hback ▸ List.mem_map_of_mem (f := unnamed?) hb)
    obtain ⟨m, -, rfl⟩ := List.mem_map.1 ha
    exact unnamed?_eq_none.1 hab.symm
  have hnone : (values.map positional).filter (·.name.isSome) = [] :=
    List.filter_eq_nil_iff.2 (List.forall_mem_map.2 fun _ _ => Bool.false_ne_true)
  have hkeywords : (keywords.map keyword).filter (·.name.isSome) = keywords.map keyword :=
    List.filter_eq_self.2 (List.forall_mem_map.2 fun _ _ => rfl)
  rw [h.arguments, List.filter_append, List.filter_append, hnone, List.nil_append, List.nil_append,
    hkeywords, List.filter_eq_self.2 hall] at hnamed
  -- The named arguments are those of the same parameters in another order.
  obtain ⟨others, hothers, hperm⟩ := List.perm_comp_forall₂ (r := fun a m => a = keyword m)
    hnamed.symm (List.forall₂_map_left_iff.2 (List.forall₂_same.2 fun _ _ => rfl))
  have hbs : back = others.map keyword := by
    rw [← List.forall₂_eq_eq_eq, List.forall₂_map_right_iff]
    exact hothers
  rw [hbs]
  exact ⟨others, hperm, h.perm hperm⟩

/-- One more value without a name is for the next parameter. -/
theorem given_concat {values : List Literal} {l : Literal} {p : Param}
    (hp : s.params[values.length]? = some p) (keywords : List (Param × Literal)) :
    s.given (values ++ [l]) keywords = s.given values ((p, l) :: keywords) := by
  have hzip : ∀ ps : List Param, ps[values.length]? = some p →
      ps.zip (values ++ [l]) = ps.zip values ++ [(p, l)] := by
    clear hp
    induction values with
    | nil =>
      intro ps hp
      cases ps with
      | nil => cases hp
      | cons q ps =>
        obtain rfl : q = p := Option.some.inj hp
        simp
    | cons v values ih =>
      intro ps hp
      cases ps with
      | nil => cases hp
      | cons q ps => exact congrArg ((q, v) :: ·) (ih ps hp)
  rw [given, given, hzip s.params hp, List.append_assoc]
  rfl

/-- The last value without a name may have one. -/
theorem takes_concat_iff {values : List Literal} {l : Literal} {p : Param}
    (hp : s.params[values.length]? = some p) {as : List Argument}
    {keywords : List (Param × Literal)} :
    s.Takes ((values ++ [l]).map positional ++ as) (values ++ [l]) keywords ↔
      s.Takes (values.map positional ++ keyword (p, l) :: as) values ((p, l) :: keywords) := by
  have hgiven := given_concat (l := l) hp keywords
  obtain ⟨hlt, -⟩ := List.getElem?_eq_some_iff.1 hp
  constructor
  · rintro ⟨harguments, -, honce, hsuits⟩
    obtain rfl := List.append_cancel_left harguments
    rw [hgiven] at honce hsuits
    exact ⟨rfl, hlt.le, honce, hsuits⟩
  · rintro ⟨harguments, -, honce, hsuits⟩
    obtain ⟨-, rfl⟩ := List.cons.inj (List.append_cancel_left harguments)
    rw [← hgiven] at honce hsuits
    exact ⟨rfl, by simpa using hlt, honce, hsuits⟩

/-- With or without that name, the same is given. -/
theorem Names.takes_iff (hs : (s.params.map (·.name)).Nodup) {as bs : List Argument}
    (h : s.Names as bs) {ms : List (Param × Literal)} :
    (∃ values keywords, s.Takes as values keywords ∧ s.given values keywords = ms) ↔
      ∃ values keywords, s.Takes bs values keywords ∧ s.given values keywords = ms := by
  obtain @⟨values, l, p, rest, hp, hlast⟩ := h
  constructor
  · rintro ⟨values', keywords, htakes, rfl⟩
    obtain ⟨ls, more, rfl, hmore⟩ := exists_positional_append rest
    have heq : (values ++ l :: ls).map positional ++ more =
        values'.map positional ++ keywords.map keyword := by
      rw [← htakes.arguments]
      simp
    obtain ⟨rfl, rfl⟩ := positional_append_inj hmore (head?_keyword keywords) heq
    -- No value without a name comes after this one, or there is no parameter for it.
    obtain rfl : ls = [] := by
      cases ls with
      | nil => rfl
      | cons l' ls =>
        rcases hlast with hnamed | hnone
        · exact absurd (hnamed _ rfl) Bool.false_ne_true
        · have harity := htakes.arity
          rw [List.getElem?_eq_none_iff] at hnone
          simp only [List.length_append, List.length_cons] at harity
          omega
    refine ⟨values, (p, l) :: keywords, (takes_concat_iff hp).1 ?_, (given_concat hp _).symm⟩
    simpa using htakes
  · rintro ⟨values', keywords, htakes, rfl⟩
    have hhead : ∀ a ∈ (keyword (p, l) :: rest).head?, a.name.isSome = true := by
      rintro _ ⟨⟩
      rfl
    obtain ⟨rfl, hrest⟩ :=
      positional_append_inj hhead (head?_keyword keywords) htakes.arguments
    obtain ⟨m, keywords, rfl, hm, rfl⟩ := List.map_eq_cons_iff.1 hrest.symm
    have hmem : m.1 ∈ s.params :=
      htakes.once.mem_iff.1 (List.mem_map_of_mem (List.mem_append_right _ (List.mem_cons_self ..)))
    have hname : m.1.name = p.name := Option.some.inj (congrArg Argument.name hm)
    obtain rfl : m = (p, l) := Prod.ext
      (List.inj_on_of_nodup_map hs hmem (List.mem_of_getElem? hp) hname)
      (congrArg Argument.value hm)
    refine ⟨values ++ [l], keywords, ?_, given_concat hp _⟩
    have htakes' := (takes_concat_iff hp).2 htakes
    rwa [List.map_append, List.append_assoc] at htakes'

/-- Where named arguments have changed places, the same call is bound. -/
theorem bind_of_shuffled (hs : (s.params.map (·.name)).Nodup) {function : String}
    {as bs : List Argument} (hshuffled : Shuffled as bs) {c : ToolCall}
    (h : s.bind ⟨function, as⟩ = .ok c) : s.bind ⟨function, bs⟩ = .ok c := by
  obtain ⟨values, keywords, htakes, hyields⟩ := (bind_eq_ok_iff hs).1 h
  obtain ⟨others, hperm, htakes⟩ := htakes.shuffled hshuffled
  have hgiven : (s.given values others).Perm (s.given values keywords) := hperm.append_left _
  exact (bind_eq_ok_iff hs).2 ⟨values, others, htakes, hyields.name, hyields.ascend,
    hyields.arguments.trans (hgiven.symm.map _)⟩

theorem bind_iff_of_names (hs : (s.params.map (·.name)).Nodup) {function : String}
    {as bs : List Argument} (hnames : s.Names as bs) {c : ToolCall} :
    s.bind ⟨function, bs⟩ = .ok c ↔ s.bind ⟨function, as⟩ = .ok c := by
  rw [bind_eq_ok_iff hs, bind_eq_ok_iff hs]
  constructor
  · rintro ⟨values, keywords, htakes, hyields⟩
    obtain ⟨values', keywords', htakes', hgiven⟩ :=
      (hnames.takes_iff hs).2 ⟨values, keywords, htakes, rfl⟩
    exact ⟨values', keywords', htakes', hgiven ▸ hyields⟩
  · rintro ⟨values, keywords, htakes, hyields⟩
    obtain ⟨values', keywords', htakes', hgiven⟩ :=
      (hnames.takes_iff hs).1 ⟨values, keywords, htakes, rfl⟩
    exact ⟨values', keywords', htakes', hgiven ▸ hyields⟩

/-- Arguments are bound if and only if they are some values without names for the first parameters
and then values with the names of the others, every parameter once and every value of the kind of its
parameter. The call then has the name of the signature, holds just what is given, and passes the
check of the signature. Named arguments may change places with each other, and the last of the values
without names at the start that there is a parameter for may have its name: whether there is a call,
and which, stays the same. -/
theorem bind_takes (hs : (s.params.map (·.name)).Nodup) (function : String) (as : List Argument) :
    ((∃ c, s.bind ⟨function, as⟩ = .ok c) ↔ ∃ values keywords, s.Takes as values keywords) ∧
    (∀ c, s.bind ⟨function, as⟩ = .ok c →
      (∃ values keywords, s.Takes as values keywords ∧ s.Yields (s.given values keywords) c) ∧
        s.validate c.arguments = .ok ()) ∧
    (∀ bs, Shuffled as bs → ∀ c, s.bind ⟨function, bs⟩ = .ok c ↔ s.bind ⟨function, as⟩ = .ok c) ∧
    (∀ bs, s.Names as bs → ∀ c, s.bind ⟨function, bs⟩ = .ok c ↔ s.bind ⟨function, as⟩ = .ok c) := by
  refine ⟨?_, ?_, ?_, ?_⟩
  · constructor
    · rintro ⟨c, hc⟩
      obtain ⟨values, keywords, htakes, -⟩ := (bind_eq_ok_iff hs).1 hc
      exact ⟨values, keywords, htakes⟩
    · rintro ⟨values, keywords, htakes⟩
      obtain ⟨hascend, hperm⟩ := foldl_insert_perm (htakes.nodup hs)
      exact ⟨⟨s.name, _⟩, (bind_eq_ok_iff hs).2 ⟨values, keywords, htakes, rfl, hascend, hperm⟩⟩
  · intro c hc
    exact ⟨(bind_eq_ok_iff hs).1 hc, (validate_of_bind hs hc).2.1⟩
  · intro bs hshuffled c
    exact ⟨bind_of_shuffled hs hshuffled.symm, bind_of_shuffled hs hshuffled⟩
  · intro bs hnames c
    exact bind_iff_of_names hs hnames

/-- Arguments of which one has no name, and the others are in the wrong order. -/
def mixedArguments : List Argument :=
  [⟨none, .int 3⟩, ⟨some "endDate", .str "2024-02-29"⟩, ⟨some "startDate", .str "2024-02-01"⟩]

/-- The call that they are bound to. -/
def mixedCall : ToolCall where
  name := "getChannelMessagesRange"
  arguments := [("channelIndex", .num (.int 3 (by decide))), ("endDate", .str "2024-02-29"),
    ("startDate", .str "2024-02-01")]

theorem bind_takes_mixed :
    (Catalog.messagesRange.params.map (·.name)).Nodup ∧
      Catalog.messagesRange.bind ⟨"getChannelMessagesRange", mixedArguments⟩ = .ok mixedCall ∧
      (∃ values keywords, Catalog.messagesRange.Takes mixedArguments values keywords) ∧
      Catalog.messagesRange.bind ⟨"getChannelMessagesRange", [⟨none, .int 3⟩,
        ⟨some "startDate", .str "2024-02-01"⟩, ⟨some "endDate", .str "2024-02-29"⟩]⟩ =
          .ok mixedCall ∧
      Catalog.messagesRange.bind ⟨"getChannelMessagesRange", [⟨some "channelIndex", .int 3⟩,
        ⟨some "endDate", .str "2024-02-29"⟩, ⟨some "startDate", .str "2024-02-01"⟩]⟩ =
          .ok mixedCall := by
  have hs : (Catalog.messagesRange.params.map (·.name)).Nodup := by decide
  have hcall : Catalog.messagesRange.bind ⟨"getChannelMessagesRange", mixedArguments⟩ =
      .ok mixedCall := by decide +kernel
  obtain ⟨htakes, -, hshuffled, hnames⟩ :=
    bind_takes hs "getChannelMessagesRange" mixedArguments
  refine ⟨hs, hcall, htakes.1 ⟨_, hcall⟩, ?_, ?_⟩
  · exact (hshuffled _ ⟨rfl, by decide⟩ _).2 hcall
  · exact (hnames _ (@Names.last _ [] (.int 3) ⟨"channelIndex", .index⟩ _ rfl
      (.inl (head?_keyword [(⟨"endDate", .date⟩, .str "2024-02-29")]))) _).2 hcall

-- The first parameter is given already, so its name comes too late.
example : Catalog.recentMessages.bind
    ⟨"getRecentChannelMessages", [⟨none, .int 1⟩, ⟨some "channelIndex", .int 2⟩]⟩ =
      .error (.duplicate "channelIndex") := by
  decide +kernel

end Signature

end ChatRelay
