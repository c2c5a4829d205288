import ChatRelay.Json.Record
import Mathlib

/-!
# What a reader has read

A thing that a reader for lists or records returns has been read from the parts of the tree, one
level further in (`exists_of_list?`, `record?_eq_some_iff`). A field has been read from its own tree
if it is there, and is its default or absent if not.
-/

namespace ChatRelay.Json.Tree

variable {α : Type} {depth : Nat} {t : Tree} {a : α} {field : Option Tree}

theorem enter?_eq_some_iff {inner : Nat} :
    enter? depth = some inner ↔ 1 < depth ∧ depth - 1 = inner := by
  rw [enter?]
  split <;> simp <;> omega

/-- Every item of a list has been read from a tree. -/
theorem exists_of_list? {read : Reader α} {as : List α} (h : list? read depth t = some as) :
    ∀ a ∈ as, ∃ t', read (depth - 1) t' = some a := by
  cases t with
  | arr items =>
    obtain ⟨inner, henter, hitems⟩ := Option.bind_eq_some_iff.1 h
    obtain ⟨-, rfl⟩ := enter?_eq_some_iff.1 henter
    clear h henter
    induction items generalizing as with
    | nil =>
      obtain rfl := Option.some.inj hitems
      nofun
    | cons item items ih =>
      simp only [List.mapM_cons, Option.bind_eq_bind, Option.bind_eq_some_iff] at hitems
      obtain ⟨a, ha, others, hothers, hcons⟩ := hitems
      obtain rfl := Option.some.inj hcons
      exact List.forall_mem_cons.2 ⟨⟨item, ha⟩, ih hothers⟩
  | _ => cases h

/-! ### Fields -/

/-- A field with a default is what its tree says, and the default if there is none. -/
theorem eq_getD_of_withDefault {read : Tree → Option α} {value : α}
    (h : withDefault value read field = some a) : a = (field.bind read).getD value := by
  cases field with
  | none => exact (Option.some.inj h).symm
  | some t =>
    rw [withDefault] at h
    rw [Option.bind_some, h, Option.getD_some]

/-- A field that may be missing is read if it is there, and what is read is never null. -/
theorem optional_eq_some {read : Tree → Option α} (hnull : read .null = none)
    (h : read t = some a) : optional read (some t) = some (some a) := by
  cases t with
  | null => cases hnull.symm.trans h
  | _ => exact congrArg (Option.map some) h

/-- A field that may be missing is what its tree says, if null says nothing, and else absent. -/
theorem eq_getD_of_optional {read : Tree → Option α} (hnull : read .null = none)
    {o : Option α} (h : optional read field = some o) :
    o = (field.bind fun t => (read t).map some).getD none := by
  cases field with
  | none => exact (Option.some.inj h).symm
  | some t =>
    cases t with
    | null =>
      rw [Option.bind_some, hnull]
      exact (Option.some.inj h).symm
    | _ =>
      obtain ⟨a, ha, rfl⟩ := Option.map_eq_some_iff.1 h
      rw [Option.bind_some, ha]
      rfl

/-- A field with a default is that, or has been read from its tree. -/
theorem exists_of_withDefault {read : Tree → Option α} {value : α}
    (h : withDefault value read field = some a) : a = value ∨ ∃ t, read t = some a := by
  cases field with
  | none => exact .inl (Option.some.inj h).symm
  | some t => exact .inr ⟨t, h⟩

/-- A field that may be missing has been read from its tree if it is there. -/
theorem exists_of_optional {read : Tree → Option α} (h : optional read field = some (some a)) :
    ∃ t, read t = some a := by
  cases field with
  | none => cases h
  | some t =>
    cases t with
    | null => cases h
    | _ =>
      obtain ⟨_, ha, heq⟩ := Option.map_eq_some_iff.1 h
      obtain rfl := Option.some.inj heq
      exact ⟨_, ha⟩

/-- A part of a field with a default is what the part of its tree says, and else that part of the
default. -/
theorem eq_getD_of_nested {β : Type} {read : Tree → Option α} {value : α} {f : α → β}
    {part : Tree → Option Tree} {readPart : Tree → Option β}
    (h : withDefault value read field = some a)
    (hread : ∀ t, read t = some a → f a = ((part t).bind readPart).getD (f value)) :
    f a = ((field.bind part).bind readPart).getD (f value) := by
  cases field with
  | none => exact congrArg f (Option.some.inj h).symm
  | some t => exact hread t h

/-! ### Records -/

/-- The tree of a field, if the record has it. -/
def field? (names : List String) (t : Tree) (name : String) : Option Tree :=
  (fields? names t).bind (·.lookup name)

/-- A record has been read from the trees of its fields. -/
theorem read_of_record? {names : List String} {read : Nat → (String → Option Tree) → Option α}
    (h : record? names read depth t = some a) :
    1 < depth ∧ read (depth - 1) (field? names t) = some a := by
  simp only [record?, Option.bind_eq_bind, Option.bind_eq_some_iff] at h
  obtain ⟨inner, henter, fields, hfields, hread⟩ := h
  obtain ⟨hdepth, rfl⟩ := enter?_eq_some_iff.1 henter
  have hfield : field? names t = fun name => fields.lookup name := by
    funext name
    rw [field?, hfields, Option.bind_some]
  exact ⟨hdepth, hfield ▸ hread⟩

/-- The members of a free-form object have been read as that object. -/
theorem json?_of_members? {members : List (String × Json)}
    (h : members? depth t = some members) : json? depth t = some (.obj members) := by
  cases t with
  | obj fields =>
    rw [members?] at h
    split at h
    · next members' hjson =>
      obtain rfl := Option.some.inj h
      exact hjson
    · cases h
  | _ => cases h

end ChatRelay.Json.Tree
