import Mathlib.Data.List.Nodup
import Mathlib.Data.List.Perm.Basic

/-!
Lists with keys. An item is changed where it stands when its key is in the list already, and a new
item stands behind all others when it is not. In a table an entry takes the place of the others with
its key.
-/

namespace ServiceModules

section

variable {α β κ : Type} [DecidableEq κ]

/-- Updates the first item with this key, or appends a new one. -/
def upsert (key : α → κ) (name : κ) (new : α) (update : α → α) : List α → List α
  | [] => [new]
  | item :: rest =>
    if key item = name then update item :: rest else item :: upsert key name new update rest

variable {key : α → κ} {name other : κ} {new : α} {update : α → α} {items : List α}

theorem find?_key_cons (item : α) (rest : List α) :
    (item :: rest).find? (fun item => key item = name) =
      if key item = name then some item else rest.find? fun item => key item = name := by
  rw [List.find?_cons]
  by_cases same : key item = name <;> simp [same]

theorem upsert_ne_nil : upsert key name new update items ≠ [] := by
  cases items with
  | nil => exact List.cons_ne_nil _ _
  | cons item rest =>
      rw [upsert]
      split <;> exact List.cons_ne_nil _ _

theorem mem_upsert {item : α} (member : item ∈ upsert key name new update items) :
    item ∈ items ∨ item = new ∨ ∃ before ∈ items, key before = name ∧ item = update before := by
  induction items with
  | nil => exact .inr (.inl (List.mem_singleton.mp member))
  | cons head rest induction =>
      rw [upsert] at member
      split at member
      · next same =>
        rcases List.mem_cons.mp member with rfl | member
        · exact .inr (.inr ⟨head, List.mem_cons_self .., same, rfl⟩)
        · exact .inl (List.mem_cons_of_mem _ member)
      · rcases List.mem_cons.mp member with rfl | member
        · exact .inl (List.mem_cons_self ..)
        · rcases induction member with old | fresh | ⟨before, beforeMember, same, rfl⟩
          · exact .inl (List.mem_cons_of_mem _ old)
          · exact .inr (.inl fresh)
          · exact .inr (.inr ⟨before, List.mem_cons_of_mem _ beforeMember, same, rfl⟩)

theorem flatMap_upsert_perm {values : α → List β} {added : List β}
    (ofNew : values new = added) (ofUpdate : ∀ item, key item = name →
      (values (update item)).Perm (values item ++ added)) :
    ((upsert key name new update items).flatMap values).Perm
      (items.flatMap values ++ added) := by
  induction items with
  | nil =>
      rw [upsert, List.flatMap_singleton, ofNew]
      exact .refl _
  | cons item rest induction =>
      rw [upsert]
      split
      · next same =>
        rw [List.flatMap_cons, List.flatMap_cons, List.append_assoc]
        have moved := (ofUpdate item same).append_right (rest.flatMap values)
        rw [List.append_assoc] at moved
        exact moved.trans (List.perm_append_comm.append_left _)
      · rw [List.flatMap_cons, List.flatMap_cons, List.append_assoc]
        exact induction.append_left _

variable (newKey : key new = name) (updateKey : ∀ item, key (update item) = key item)

include newKey updateKey

theorem nodup_map_upsert (distinct : (items.map key).Nodup) :
    ((upsert key name new update items).map key).Nodup := by
  induction items with
  | nil => exact List.nodup_singleton _
  | cons item rest induction =>
      rw [List.map_cons, List.nodup_cons] at distinct
      rw [upsert]
      split
      · rw [List.map_cons, List.nodup_cons, updateKey]
        exact distinct
      · next different =>
        rw [List.map_cons, List.nodup_cons]
        refine ⟨fun member => ?_, induction distinct.2⟩
        rcases List.mem_map.mp member with ⟨twin, twinMember, same⟩
        rcases mem_upsert twinMember with old | rfl | ⟨before, beforeMember, _, rfl⟩
        · exact distinct.1 (List.mem_map.mpr ⟨twin, old, same⟩)
        · exact different (same.symm.trans newKey)
        · rw [updateKey] at same
          exact distinct.1 (List.mem_map.mpr ⟨before, beforeMember, same⟩)

theorem find?_upsert_self :
    (upsert key name new update items).find? (fun item => key item = name) =
      some (((items.find? fun item => key item = name).map update).getD new) := by
  induction items with
  | nil =>
      rw [upsert, find?_key_cons, if_pos newKey]
      rfl
  | cons item rest induction =>
      rw [upsert, find?_key_cons]
      split
      · next same =>
        rw [find?_key_cons, if_pos ((updateKey item).trans same)]
        rfl
      · next different => rw [find?_key_cons, if_neg different, induction]

theorem find?_upsert_of_ne (different : other ≠ name) :
    (upsert key name new update items).find? (fun item => key item = other) =
      items.find? fun item => key item = other := by
  induction items with
  | nil => rw [upsert, find?_key_cons, if_neg fun same => different (same.symm.trans newKey)]
  | cons item rest induction =>
      rw [upsert]
      split
      · next same =>
        have apart : key item ≠ other := same ▸ different.symm
        rw [find?_key_cons, find?_key_cons, if_neg apart, updateKey, if_neg apart]
      · rw [find?_key_cons, find?_key_cons, induction]

end

theorem lookup_replaced {κ α : Type} [BEq κ] [LawfulBEq κ] [DecidableEq κ] (entries : List (κ × α))
    (key : κ) (value : α) (other : κ) :
    (entries.filter (fun entry => entry.1 ≠ key) ++ [(key, value)]).lookup other =
      if other = key then some value else entries.lookup other := by
  by_cases same : other = key
  · have dropped : (entries.filter fun entry => entry.1 ≠ key).lookup key = none := by
      rw [List.lookup_eq_none_iff]
      intro entry member
      exact bne_iff_ne.mpr (of_decide_eq_true (List.mem_filter.mp member).2).symm
    rw [if_pos same, same, List.lookup_append, dropped, Option.none_or, List.lookup_cons_self]
  · have kept : (entries.filter fun entry => entry.1 ≠ key).lookup other =
        entries.lookup other := by
      induction entries with
      | nil => rfl
      | cons entry rest induction =>
          rw [List.filter_cons]
          split
          · rw [List.lookup_cons, List.lookup_cons, induction]
          · next dropped =>
            have different : (other == entry.1) = false := by
              rw [decide_eq_true_eq, not_not] at dropped
              exact beq_eq_false_iff_ne.mpr (dropped ▸ same)
            rw [List.lookup_cons, different, induction]
    have last : [(key, value)].lookup other = none := by
      rw [List.lookup_cons, beq_eq_false_iff_ne.mpr same]
      rfl
    rw [if_neg same, List.lookup_append, kept, last, Option.or_none]

end ServiceModules
