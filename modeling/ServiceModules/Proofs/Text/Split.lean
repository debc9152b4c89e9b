import ServiceModules.Text.Split

/-!
Cutting and joining are inverse: the parts of a text, joined again, are the text, and parts without
the separator are found again in the text that they were joined to.
-/

namespace ServiceModules

namespace Text

variable {separator : Char}

theorem split_cons_of_ne {character : Char} (other : character ≠ separator) (rest : List Char) :
    ∃ part parts, split separator rest = part :: parts ∧
      split separator (character :: rest) = (character :: part) :: parts := by
  rw [split, if_neg other]
  cases cut : split separator rest with
  | nil =>
      cases rest with
      | nil => cases cut
      | cons head tail =>
          rw [split] at cut
          split at cut
          · cases cut
          · split at cut <;> cases cut
  | cons part parts => exact ⟨part, parts, rfl, rfl⟩

theorem split_cons_self (rest : List Char) :
    split separator (separator :: rest) = [] :: split separator rest := by
  rw [split, if_pos rfl]

theorem split_ne_nil (text : List Char) : split separator text ≠ [] := by
  cases text with
  | nil => exact List.cons_ne_nil _ _
  | cons character rest =>
      by_cases same : character = separator
      · rw [same, split_cons_self]
        exact List.cons_ne_nil _ _
      · rcases split_cons_of_ne same rest with ⟨part, parts, _, cut⟩
        rw [cut]
        exact List.cons_ne_nil _ _

theorem intercalate_cons {part : List Char} {parts : List (List Char)} (more : parts ≠ []) :
    List.intercalate [separator] (part :: parts) =
      part ++ separator :: List.intercalate [separator] parts := by
  cases parts with
  | nil => exact absurd rfl more
  | cons second parts => simp [List.intercalate]

theorem intercalate_split (text : List Char) :
    List.intercalate [separator] (split separator text) = text := by
  induction text with
  | nil => rfl
  | cons character rest induction =>
      by_cases same : character = separator
      · rw [same, split_cons_self, intercalate_cons (split_ne_nil rest), induction]
        rfl
      · rcases split_cons_of_ne same rest with ⟨part, parts, cut, whole⟩
        rw [cut] at induction
        rw [whole, ← induction]
        cases parts with
        | nil => simp [List.intercalate]
        | cons second parts => simp [List.intercalate]

theorem not_mem_of_mem_split {text : List Char} :
    ∀ part ∈ split separator text, separator ∉ part := by
  induction text with
  | nil =>
      intro part member
      rw [List.mem_singleton.mp member]
      exact List.not_mem_nil
  | cons character rest induction =>
      by_cases same : character = separator
      · rw [same, split_cons_self]
        intro part member
        rcases List.mem_cons.mp member with rfl | member
        · exact List.not_mem_nil
        · exact induction part member
      · rcases split_cons_of_ne same rest with ⟨first, parts, cut, whole⟩
        rw [cut] at induction
        rw [whole]
        intro part member
        rcases List.mem_cons.mp member with rfl | member
        · exact List.not_mem_cons_of_ne_of_not_mem (Ne.symm same)
            (induction first (List.mem_cons_self ..))
        · exact induction part (List.mem_cons_of_mem _ member)

theorem subset_of_mem_split {text part : List Char} (isPart : part ∈ split separator text) :
    part ⊆ text := by
  induction text generalizing part with
  | nil => exact List.mem_singleton.mp isPart ▸ List.Subset.refl _
  | cons character rest induction =>
      by_cases same : character = separator
      · rw [same, split_cons_self] at isPart
        rcases List.mem_cons.mp isPart with rfl | isPart
        · exact List.nil_subset _
        · exact List.subset_cons_of_subset _ (induction isPart)
      · rcases split_cons_of_ne same rest with ⟨first, parts, cut, whole⟩
        rw [cut] at induction
        rw [whole] at isPart
        rcases List.mem_cons.mp isPart with rfl | isPart
        · exact List.cons_subset_cons _ (induction (List.mem_cons_self ..))
        · exact List.subset_cons_of_subset _ (induction (List.mem_cons_of_mem _ isPart))

theorem split_append {part : List Char} (whole : separator ∉ part) (rest : List Char) :
    split separator (part ++ separator :: rest) = part :: split separator rest := by
  induction part with
  | nil => exact split_cons_self rest
  | cons character part induction =>
      have other : character ≠ separator := fun same => whole (same ▸ List.mem_cons_self ..)
      have cut := induction fun member => whole (List.mem_cons_of_mem _ member)
      rcases split_cons_of_ne other (part ++ separator :: rest) with ⟨first, parts, inner, outer⟩
      rw [cut] at inner
      cases inner
      exact outer

theorem split_of_not_mem {part : List Char} (whole : separator ∉ part) :
    split separator part = [part] := by
  induction part with
  | nil => rfl
  | cons character part induction =>
      have other : character ≠ separator := fun same => whole (same ▸ List.mem_cons_self ..)
      have cut := induction fun member => whole (List.mem_cons_of_mem _ member)
      rcases split_cons_of_ne other part with ⟨first, parts, inner, outer⟩
      rw [cut] at inner
      cases inner
      exact outer

theorem split_join {parts : List (List Char)} (nonempty : parts ≠ [])
    (whole : ∀ part ∈ parts, separator ∉ part) :
    split separator (join separator parts) = parts := by
  induction parts with
  | nil => exact absurd rfl nonempty
  | cons part parts induction =>
      have here := whole part (List.mem_cons_self ..)
      cases parts with
      | nil => exact split_of_not_mem here
      | cons second parts =>
          rw [join, split_append here, induction (List.cons_ne_nil _ _)
            fun other member => whole other (List.mem_cons_of_mem _ member)]
          exact fun equal => absurd equal (List.cons_ne_nil _ _)

theorem join_cons {part : List Char} {parts : List (List Char)} (more : parts ≠ []) :
    join separator (part :: parts) = part ++ separator :: join separator parts := by
  cases parts with
  | nil => exact absurd rfl more
  | cons second parts => rfl

theorem join_append {parts more : List (List Char)} (some : parts ≠ []) (someMore : more ≠ []) :
    join separator (parts ++ more) =
      join separator parts ++ separator :: join separator more := by
  induction parts with
  | nil => exact absurd rfl some
  | cons part parts induction =>
      cases parts with
      | nil => exact join_cons someMore
      | cons second parts =>
          rw [List.cons_append, join_cons, join_cons (List.cons_ne_nil _ _),
            induction (List.cons_ne_nil _ _), List.append_assoc, List.cons_append]
          rw [List.cons_append]
          exact List.cons_ne_nil _ _

theorem join_eq_intercalate (parts : List (List Char)) :
    join separator parts = List.intercalate [separator] parts := by
  induction parts with
  | nil => rfl
  | cons part parts induction =>
      cases parts with
      | nil => simp [join, List.intercalate]
      | cons second parts =>
          rw [join_cons (List.cons_ne_nil _ _), intercalate_cons (List.cons_ne_nil _ _), induction]

theorem join_split (text : List Char) : join separator (split separator text) = text := by
  induction text with
  | nil => rfl
  | cons character rest induction =>
      by_cases same : character = separator
      · rw [same, split_cons_self, join_cons (split_ne_nil rest), induction, List.nil_append]
      · rcases split_cons_of_ne same rest with ⟨part, parts, cut, whole⟩
        rw [cut] at induction
        rw [whole, ← induction]
        cases parts with
        | nil => rfl
        | cons second parts => rfl

end Text

end ServiceModules
