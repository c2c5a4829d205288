import ChatRelay.Json.Basic
import Mathlib

/-!
# Members in the order of their keys

An object is the list of its members in ascending order of their keys. Putting a member in its place
keeps the order (`keysAscend_insert`) and changes the value of its own key only (`lookup_insert`).
Such a list is determined by what is in it (`eq_of_perm`) or found in it (`eq_of_lookup_eq`), and a
list that is in order already is left as it is (`ofMembers_of_keysAscend`). Members with different
keys are put in order without a loss, however they are given (`ofMembers_perm`,
`ofMembers_eq_of_perm`, `lookup_ofMembers`).
-/

namespace ChatRelay.Json

variable {key : String} {value : Json} {members others : List (String × Json)}

instance (members : List (String × Json)) : Decidable (KeysAscend members) :=
  inferInstanceAs (Decidable ((members.map (·.1)).Pairwise (· < ·)))

theorem keysAscend_nil : KeysAscend [] := List.Pairwise.nil

theorem keysAscend_cons :
    KeysAscend ((key, value) :: members) ↔ (∀ m ∈ members, key < m.1) ∧ KeysAscend members := by
  rw [KeysAscend, List.map_cons, List.pairwise_cons, List.forall_mem_map]
  rfl

/-! ### Finding a member -/

theorem lookup_cons_self : List.lookup key ((key, value) :: members) = some value := by
  rw [List.lookup_cons, beq_self_eq_true]

theorem lookup_cons_of_ne {k : String} (h : k ≠ key) :
    List.lookup k ((key, value) :: members) = members.lookup k := by
  rw [List.lookup_cons, beq_eq_false_iff_ne.2 h]

theorem lookup_eq_none_of_lt (h : ∀ m ∈ members, key < m.1) : members.lookup key = none := by
  induction members with
  | nil => rfl
  | cons m members ih =>
    obtain ⟨hm, hrest⟩ := List.forall_mem_cons.1 h
    rw [lookup_cons_of_ne (ne_of_lt hm), ih hrest]

/-- What is found is there. -/
theorem mem_of_lookup (h : members.lookup key = some value) : (key, value) ∈ members := by
  induction members with
  | nil => cases h
  | cons m members ih =>
    obtain ⟨k, v⟩ := m
    by_cases hk : key = k
    · subst hk
      rw [lookup_cons_self] at h
      rw [Option.some.inj h]
      exact List.mem_cons_self ..
    · rw [lookup_cons_of_ne hk] at h
      exact List.mem_cons_of_mem _ (ih h)

/-- What is there is found, if the keys are in order. -/
theorem lookup_of_mem (hmembers : KeysAscend members) (h : (key, value) ∈ members) :
    members.lookup key = some value := by
  induction members with
  | nil => cases h
  | cons m members ih =>
    obtain ⟨k, v⟩ := m
    obtain ⟨hk, hrest⟩ := keysAscend_cons.1 hmembers
    rcases List.mem_cons.1 h with heq | h
    · obtain ⟨rfl, rfl⟩ := Prod.mk.inj heq
      exact lookup_cons_self
    · rw [lookup_cons_of_ne (hk _ h).ne', ih hrest h]

/-! ### Putting a member in its place -/

/-- Putting a member in its place changes what is found under its key, and nothing else. -/
theorem lookup_insert (key k : String) (value : Json) (members : List (String × Json)) :
    (insert key value members).lookup k = if k = key then some value else members.lookup k := by
  induction members with
  | nil =>
    by_cases hk : k = key
    · subst hk
      rw [insert, lookup_cons_self, if_pos rfl]
    · rw [insert, lookup_cons_of_ne hk, if_neg hk]
  | cons m members ih =>
    obtain ⟨l, v⟩ := m
    rw [insert]
    split
    · by_cases hk : k = key
      · subst hk
        rw [lookup_cons_self, if_pos rfl]
      · rw [lookup_cons_of_ne hk, if_neg hk]
    split
    · next heq =>
      subst heq
      by_cases hk : k = key
      · subst hk
        rw [lookup_cons_self, if_pos rfl]
      · rw [lookup_cons_of_ne hk, lookup_cons_of_ne hk, if_neg hk]
    · next hne =>
      by_cases hl : k = l
      · subst hl
        rw [lookup_cons_self, lookup_cons_self, if_neg (Ne.symm hne)]
      · rw [lookup_cons_of_ne hl, lookup_cons_of_ne hl, ih]

theorem mem_insert {m : String × Json} (h : m ∈ insert key value members) :
    m = (key, value) ∨ m ∈ members := by
  induction members with
  | nil => exact .inl (List.mem_singleton.1 h)
  | cons n members ih =>
    obtain ⟨k, v⟩ := n
    rw [insert] at h
    split at h
    · exact List.mem_cons.1 h
    split at h
    · rcases List.mem_cons.1 h with h | h
      · exact .inl h
      · exact .inr (List.mem_cons_of_mem _ h)
    · rcases List.mem_cons.1 h with h | h
      · exact .inr (h ▸ List.mem_cons_self ..)
      · exact (ih h).imp_right (List.mem_cons_of_mem _)

theorem lookup_insert_eq_none {k : String} :
    (insert key value members).lookup k = none ↔ k ≠ key ∧ members.lookup k = none := by
  rw [lookup_insert]
  split
  · next hk => simp [hk]
  · next hk => exact (and_iff_right hk).symm

/-- Where its key is not there yet, a member is added. -/
theorem insert_perm (h : members.lookup key = none) :
    (insert key value members).Perm ((key, value) :: members) := by
  induction members with
  | nil => exact .refl _
  | cons m members ih =>
    obtain ⟨k, v⟩ := m
    have hne : key ≠ k := by
      rintro rfl
      rw [lookup_cons_self] at h
      cases h
    rw [lookup_cons_of_ne hne] at h
    rw [insert, if_neg hne]
    split
    · exact .refl _
    · exact ((ih h).cons _).trans (.swap ..)

/-- The keys stay in order. -/
theorem keysAscend_insert (h : KeysAscend members) : KeysAscend (insert key value members) := by
  induction members with
  | nil => exact keysAscend_cons.2 ⟨by simp, keysAscend_nil⟩
  | cons m members ih =>
    obtain ⟨k, v⟩ := m
    obtain ⟨hk, hrest⟩ := keysAscend_cons.1 h
    rw [insert]
    split
    · next hlt =>
      refine keysAscend_cons.2 ⟨?_, h⟩
      intro n hn
      rcases List.mem_cons.1 hn with rfl | hn
      · exact hlt
      · exact hlt.trans (hk n hn)
    split
    · next heq =>
      subst heq
      exact keysAscend_cons.2 ⟨hk, hrest⟩
    · next hnlt hne =>
      refine keysAscend_cons.2 ⟨?_, ih hrest⟩
      intro n hn
      rcases mem_insert hn with rfl | hn
      · exact lt_of_le_of_ne (not_lt.1 hnlt) (Ne.symm hne)
      · exact hk n hn

/-- A member whose key comes last is put at the end. -/
theorem insert_of_forall_lt (h : ∀ m ∈ members, m.1 < key) :
    insert key value members = members ++ [(key, value)] := by
  induction members with
  | nil => rfl
  | cons m members ih =>
    obtain ⟨hm, hrest⟩ := List.forall_mem_cons.1 h
    rw [insert, if_neg hm.not_gt, if_neg hm.ne', ih hrest, List.cons_append]

/-- Members in order are left as they are. -/
theorem ofMembers_of_keysAscend (h : KeysAscend members) : ofMembers members = members := by
  -- What has been put in place comes before all that is still to come.
  have go : ∀ sorted, KeysAscend (sorted ++ members) →
      members.foldl (fun sorted m => insert m.1 m.2 sorted) sorted = sorted ++ members := by
    clear h
    induction members with
    | nil => simp
    | cons m members ih =>
      intro sorted hs
      have hlt : ∀ n ∈ sorted, n.1 < m.1 := by
        intro n hn
        rw [KeysAscend, List.map_append, List.pairwise_append] at hs
        exact hs.2.2 n.1 (List.mem_map_of_mem hn) m.1 (by simp)
      rw [List.foldl_cons, insert_of_forall_lt hlt, ih _ (by simpa using hs), List.append_assoc]
      rfl
  exact go [] h

/-- Members that are put in place one by one are in order. -/
theorem keysAscend_ofMembers (members : List (String × Json)) : KeysAscend (ofMembers members) := by
  have go : ∀ sorted, KeysAscend sorted →
      KeysAscend (members.foldl (fun sorted m => insert m.1 m.2 sorted) sorted) := by
    induction members with
    | nil => exact fun sorted h => h
    | cons m members ih => exact fun sorted h => ih _ (keysAscend_insert h)
  exact go [] keysAscend_nil

/-- What is put in place was among the members. -/
theorem mem_of_mem_ofMembers {m : String × Json} (h : m ∈ ofMembers members) : m ∈ members := by
  have go : ∀ sorted, m ∈ members.foldl (fun sorted n => insert n.1 n.2 sorted) sorted →
      m ∈ members ∨ m ∈ sorted := by
    clear h
    induction members with
    | nil => exact fun sorted h => .inr h
    | cons n members ih =>
      intro sorted h
      rcases ih _ h with h | h
      · exact .inl (List.mem_cons_of_mem n h)
      · rcases mem_insert h with rfl | h
        · exact .inl (List.mem_cons_self ..)
        · exact .inr h
  exact (go [] h).resolve_right List.not_mem_nil

/-- Of members with different keys, each is found under its own. -/
theorem lookup_ofMembers (h : (members.map (·.1)).Nodup) (k : String) :
    (ofMembers members).lookup k = members.lookup k := by
  have go : ∀ sorted, (members.foldl (fun sorted m => insert m.1 m.2 sorted) sorted).lookup k =
      (members.lookup k).or (sorted.lookup k) := by
    induction members with
    | nil => exact fun sorted => rfl
    | cons m members ih =>
      obtain ⟨l, v⟩ := m
      rw [List.map_cons, List.nodup_cons] at h
      intro sorted
      rw [List.foldl_cons, ih h.2, lookup_insert]
      by_cases hk : k = l
      · subst hk
        have hnone : members.lookup k = none := by
          rw [List.lookup_eq_none_iff]
          intro m hm
          rw [bne_iff_ne]
          rintro rfl
          exact h.1 (List.mem_map.2 ⟨m, hm, rfl⟩)
        rw [hnone, if_pos rfl, lookup_cons_self]
        rfl
      · rw [if_neg hk, lookup_cons_of_ne hk]
  rw [ofMembers, go, List.lookup_nil, Option.or_none]

/-- Members with different keys are put in order, and that is all. -/
theorem ofMembers_perm (h : (members.map (·.1)).Nodup) : (ofMembers members).Perm members := by
  have go : ∀ sorted, (∀ m ∈ members, sorted.lookup m.1 = none) →
      (members.foldl (fun sorted m => insert m.1 m.2 sorted) sorted).Perm (members ++ sorted) := by
    induction members with
    | nil => exact fun sorted _ => .refl _
    | cons m members ih =>
      rw [List.map_cons, List.nodup_cons] at h
      intro sorted hfree
      obtain ⟨hm, hrest⟩ := List.forall_mem_cons.1 hfree
      have hstill : ∀ n ∈ members, (insert m.1 m.2 sorted).lookup n.1 = none := by
        intro n hn
        refine lookup_insert_eq_none.2 ⟨?_, hrest n hn⟩
        intro heq
        exact h.1 (heq ▸ List.mem_map_of_mem hn)
      rw [List.foldl_cons]
      exact (ih h.2 _ hstill).trans
        (((insert_perm hm).append_left members).trans List.perm_middle)
  have hperm := go [] fun _ _ => List.lookup_nil
  rwa [List.append_nil] at hperm

/-- Members in order are determined by what is there. -/
theorem eq_of_perm (hm : KeysAscend members) (ho : KeysAscend others)
    (h : members.Perm others) : members = others := by
  refine h.eq_of_pairwise ?_ (List.pairwise_map.1 hm) (List.pairwise_map.1 ho)
  intro a b _ _ hab hba
  exact absurd hba hab.not_gt

/-- In whatever order members with different keys are given, they are put in the same order. -/
theorem ofMembers_eq_of_perm (hnodup : (members.map (·.1)).Nodup) (h : members.Perm others) :
    ofMembers members = ofMembers others := by
  have hothers : (others.map (·.1)).Nodup := (h.map _).nodup_iff.1 hnodup
  refine eq_of_perm (keysAscend_ofMembers members) (keysAscend_ofMembers others) ?_
  exact ((ofMembers_perm hnodup).trans h).trans (ofMembers_perm hothers).symm

/-- Members in order are determined by what is found under each key. -/
theorem eq_of_lookup_eq (hm : KeysAscend members) (ho : KeysAscend others)
    (h : ∀ k, members.lookup k = others.lookup k) : members = others := by
  induction members generalizing others with
  | nil =>
    cases others with
    | nil => rfl
    | cons o others =>
      have := h o.1
      rw [lookup_cons_self] at this
      cases this
  | cons m members ih =>
    obtain ⟨k, v⟩ := m
    obtain ⟨hk, hmembers⟩ := keysAscend_cons.1 hm
    cases others with
    | nil =>
      have := h k
      rw [lookup_cons_self] at this
      cases this
    | cons o others =>
      obtain ⟨l, w⟩ := o
      obtain ⟨hl, hothers⟩ := keysAscend_cons.1 ho
      -- Neither list can start with a key that the other has to pass over.
      obtain hlt | rfl | hlt := lt_trichotomy k l
      · have := h k
        rw [lookup_cons_self, lookup_cons_of_ne hlt.ne,
          lookup_eq_none_of_lt fun n hn => hlt.trans (hl n hn)] at this
        cases this
      · have hv := h k
        rw [lookup_cons_self, lookup_cons_self] at hv
        obtain rfl := Option.some.inj hv
        refine congrArg _ (ih hmembers hothers fun j => ?_)
        by_cases hj : j = k
        · subst hj
          rw [lookup_eq_none_of_lt hk, lookup_eq_none_of_lt hl]
        · simpa only [lookup_cons_of_ne hj] using h j
      · have := h l
        rw [lookup_cons_self, lookup_cons_of_ne hlt.ne,
          lookup_eq_none_of_lt fun n hn => hlt.trans (hk n hn)] at this
        cases this

end ChatRelay.Json
