import Mathlib.Data.List.Induction
import Mathlib.Data.List.Nodup

/-!
Lists without repetitions. What is left of a list stands in the order in which it first stood, so
that nothing changes for a search that ends with the first item of some kind. An item is found by
its key when no other item has this key.
-/

namespace ServiceModules

section

variable {α κ : Type} [DecidableEq κ]

theorem eraseDups_append_singleton (items : List κ) (item : κ) :
    (items ++ [item]).eraseDups =
      if item ∈ items then items.eraseDups else items.eraseDups ++ [item] := by
  rw [List.eraseDups_append]
  by_cases member : item ∈ items
  · simp [member, List.removeAll]
  · simp [member, List.removeAll, List.eraseDups_cons]

theorem nodup_eraseDups (items : List κ) : items.eraseDups.Nodup := by
  induction items using List.reverseRecOn with
  | nil => exact List.nodup_nil
  | append_singleton items item induction =>
      rw [eraseDups_append_singleton]
      split
      · exact induction
      · next new =>
        exact List.Nodup.append induction (List.nodup_singleton _)
          (List.disjoint_singleton.mpr fun member => new (List.mem_eraseDups.mp member))

theorem eraseDups_sublist (items : List κ) : items.eraseDups.Sublist items := by
  induction items using List.reverseRecOn with
  | nil => exact .slnil
  | append_singleton items item induction =>
      rw [eraseDups_append_singleton]
      split
      · exact induction.trans (List.sublist_append_left items [item])
      · exact induction.append_right [item]

theorem pairwise_idxOf_eraseDups (items : List κ) :
    items.eraseDups.Pairwise fun left right => items.idxOf left < items.idxOf right := by
  induction items using List.reverseRecOn with
  | nil => exact .nil
  | append_singleton items item induction =>
      have earlier : items.eraseDups.Pairwise fun left right =>
          (items ++ [item]).idxOf left < (items ++ [item]).idxOf right := by
        apply induction.imp_of_mem
        intro left right isLeft isRight order
        rw [List.idxOf_append_of_mem (List.mem_eraseDups.mp isLeft),
          List.idxOf_append_of_mem (List.mem_eraseDups.mp isRight)]
        exact order
      rw [eraseDups_append_singleton]
      split
      · exact earlier
      · next new =>
        apply List.pairwise_append.mpr
        refine ⟨earlier, List.pairwise_singleton .., ?_⟩
        intro left isLeft right isRight
        have isIn := List.mem_eraseDups.mp isLeft
        rw [List.mem_singleton.mp isRight, List.idxOf_append_of_mem isIn,
          List.idxOf_append_of_notMem new]
        have bound := List.idxOf_lt_length_of_mem isIn
        omega

theorem findSome?_eraseDups (find : κ → Option α) (items : List κ) :
    items.eraseDups.findSome? find = items.findSome? find := by
  induction items using List.reverseRecOn with
  | nil => rfl
  | append_singleton items item induction =>
      rw [eraseDups_append_singleton, List.findSome?_append]
      split
      · next member =>
        rw [induction]
        cases found : items.findSome? find with
        | none => simp [List.findSome?_eq_none_iff.mp found item member]
        | some value => rfl
      · rw [List.findSome?_append, induction]

theorem find?_of_nodup_map {key : α → κ} {items : List α} (distinct : (items.map key).Nodup)
    {item : α} (isIn : item ∈ items) :
    (items.find? fun other => key other = key item) = some item := by
  have isSome : (items.find? fun other => key other = key item).isSome :=
    List.find?_isSome.mpr ⟨item, isIn, by simp⟩
  obtain ⟨other, found⟩ := Option.isSome_iff_exists.mp isSome
  have sameKey := List.find?_some found
  have same : other = item :=
    List.inj_on_of_nodup_map distinct (List.mem_of_find?_eq_some found) isIn
      (of_decide_eq_true sameKey)
  rw [found, same]

end

end ServiceModules
