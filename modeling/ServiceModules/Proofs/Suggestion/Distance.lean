import ServiceModules.Suggestion.Distance

/-!
The distance of two texts is the least number of edits that turn one into the other. A table of
distances is computed suffix by suffix; from it comes an edit for every unit of the distance, and no
single edit brings a text nearer to another one by more than one unit.
-/

namespace ServiceModules

namespace Suggestion

/-! ## Edits -/

inductive Edits : List Char → List Char → Prop where
  | insert (front back : List Char) (character : Char) :
      Edits (front ++ back) (front ++ character :: back)
  | remove (front back : List Char) (character : Char) :
      Edits (front ++ character :: back) (front ++ back)
  | replace (front back : List Char) (old new : Char) :
      Edits (front ++ old :: back) (front ++ new :: back)

/-- At most `limit` edits, one after the other, turn the first text into the second one. -/
inductive EditsWithin : Nat → List Char → List Char → Prop where
  | done (limit : Nat) (text : List Char) : EditsWithin limit text text
  | edit {limit : Nat} {source between target : List Char} (edits : Edits source between)
      (rest : EditsWithin limit between target) : EditsWithin (limit + 1) source target

variable {source between target : List Char} {limit : Nat}

theorem Edits.cons (edits : Edits source target) (character : Char) :
    Edits (character :: source) (character :: target) := by
  cases edits with
  | insert front back new => exact .insert (character :: front) back new
  | remove front back old => exact .remove (character :: front) back old
  | replace front back old new => exact .replace (character :: front) back old new

namespace EditsWithin

theorem cons (edits : EditsWithin limit source target) (character : Char) :
    EditsWithin limit (character :: source) (character :: target) := by
  induction edits with
  | done limit text => exact .done limit _
  | edit edits _ induction => exact .edit (edits.cons character) induction

theorem mono (edits : EditsWithin limit source target) {more : Nat} (atMost : limit ≤ more) :
    EditsWithin more source target := by
  induction edits generalizing more with
  | done limit text => exact .done more text
  | edit edits _ induction =>
      cases more with
      | zero => exact absurd atMost (Nat.not_succ_le_zero _)
      | succ more => exact .edit edits (induction (Nat.le_of_succ_le_succ atMost))

theorem min (edits : EditsWithin limit source target) {other : Nat}
    (others : EditsWithin other source target) :
    EditsWithin (Min.min limit other) source target := by
  rcases Nat.le_total limit other with less | less
  · rw [Nat.min_eq_left less]
    exact edits
  · rw [Nat.min_eq_right less]
    exact others

end EditsWithin

/-! ## The table of distances -/

theorem distances_nil_right (source : List Char) : distances source [] = [source.length] := by
  induction source with
  | nil => rfl
  | cons character source induction => rw [distances, induction]; rfl

theorem distances_cons (source : List Char) (letter : Char) (target : List Char) :
    distances source (letter :: target) =
      distance source (letter :: target) :: distances source target := by
  cases source with
  | nil => rfl
  | cons character source =>
      have rest := distances_cons source letter target
      rw [distance, distances, rest]
      rfl

@[simp] theorem distance_nil_left (target : List Char) : distance [] target = target.length := by
  cases target <;> rfl

@[simp] theorem distance_nil_right (source : List Char) : distance source [] = source.length := by
  rw [distance, distances_nil_right]
  rfl

theorem distance_cons_cons (character letter : Char) (source target : List Char) :
    distance (character :: source) (letter :: target) =
      if character = letter then distance source target
      else 1 + min (distance source target)
        (min (distance source (letter :: target)) (distance (character :: source) target)) := by
  rw [distance, distances, distances_cons]
  rfl

theorem distance_cons_self (character : Char) (source target : List Char) :
    distance (character :: source) (character :: target) = distance source target := by
  rw [distance_cons_cons, if_pos rfl]

theorem distance_cons_of_ne {character letter : Char} (different : character ≠ letter)
    (source target : List Char) :
    distance (character :: source) (letter :: target) =
      1 + min (distance source target)
        (min (distance source (letter :: target)) (distance (character :: source) target)) := by
  rw [distance_cons_cons, if_neg different]

theorem distance_comm (source target : List Char) :
    distance source target = distance target source := by
  induction source generalizing target with
  | nil => rw [distance_nil_left, distance_nil_right]
  | cons character source outer =>
      induction target with
      | nil => rw [distance_nil_left, distance_nil_right]
      | cons letter target inner =>
          by_cases same : character = letter
          · rw [same, distance_cons_self, distance_cons_self, outer]
          · rw [distance_cons_of_ne same, distance_cons_of_ne (Ne.symm same), outer, outer, inner,
              Nat.min_comm (distance (letter :: target) source)]

theorem distance_self (text : List Char) : distance text text = 0 := by
  induction text with
  | nil => rfl
  | cons character text induction => rw [distance_cons_self, induction]

/-! ## As many edits as the distance -/

theorem editsWithin_distance (source target : List Char) :
    EditsWithin (distance source target) source target := by
  induction source generalizing target with
  | nil =>
      rw [distance_nil_left]
      induction target with
      | nil => exact .done 0 []
      | cons letter target induction => exact .edit (.insert [] [] letter) (induction.cons letter)
  | cons character source outer =>
      induction target with
      | nil =>
          have removes := EditsWithin.edit (.remove [] source character) (outer [])
          rw [distance_nil_right] at removes ⊢
          exact removes
      | cons letter target inner =>
          by_cases same : character = letter
          · rw [same, distance_cons_self]
            exact (outer target).cons letter
          · have replaces := EditsWithin.edit (.replace [] source character letter)
              ((outer target).cons letter)
            have removes :=
              EditsWithin.edit (.remove [] source character) (outer (letter :: target))
            have inserts := EditsWithin.edit (.insert [] (character :: source) letter)
              (inner.cons letter)
            have best := replaces.min (removes.min inserts)
            rw [Nat.add_min_add_right, Nat.add_min_add_right, Nat.add_comm] at best
            rw [distance_cons_of_ne same]
            exact best

/-! ## No fewer edits than the distance -/

/-- One more character makes a difference of one at most. Where it is the first character of the
other text too, the two texts change roles, so that the induction is on the length of both together.
-/
theorem distance_cons_near (character : Char) (source : List Char) : ∀ target,
    distance (character :: source) target ≤ distance source target + 1 ∧
      distance source target ≤ distance (character :: source) target + 1
  | [] => by
      simp only [distance_nil_right, List.length_cons]
      omega
  | letter :: target => by
      have exchanged := distance_cons_near letter target source
      have shorter := distance_cons_near character source target
      rw [distance_comm _ source, distance_comm _ source] at exchanged
      by_cases same : character = letter
      -- The character is matched, and the bound is that of the exchanged texts.
      · rw [same, distance_cons_self]
        exact ⟨by omega, by omega⟩
      · rw [distance_cons_of_ne same]
        omega
termination_by target => source.length + target.length

theorem distance_replaced_le (old new : Char) (source target : List Char) :
    distance (old :: source) target ≤ distance (new :: source) target + 1 := by
  induction target with
  | nil =>
      simp only [distance_nil_right, List.length_cons]
      omega
  | cons letter target induction =>
      have shorter := distance_cons_near new source target
      have exchanged := distance_cons_near letter target source
      rw [distance_comm _ source, distance_comm _ source] at exchanged
      rw [distance_cons_cons old, distance_cons_cons new]
      split <;> split <;> omega

theorem distance_cons_le {between : List Char}
    (near : ∀ target, distance source target ≤ distance between target + 1) (character : Char)
    (target : List Char) :
    distance (character :: source) target ≤ distance (character :: between) target + 1 := by
  induction target with
  | nil =>
      have shorter := near []
      simp only [distance_nil_right, List.length_cons] at shorter ⊢
      omega
  | cons letter target induction =>
      have whole := near (letter :: target)
      have rest := near target
      by_cases same : character = letter
      · rw [same, distance_cons_self, distance_cons_self]
        exact rest
      · rw [distance_cons_of_ne same, distance_cons_of_ne same]
        omega

theorem distance_append_le {back behind : List Char}
    (near : ∀ target, distance back target ≤ distance behind target + 1)
    (front target : List Char) :
    distance (front ++ back) target ≤ distance (front ++ behind) target + 1 := by
  induction front generalizing target with
  | nil => exact near target
  | cons character front induction => exact distance_cons_le induction character target

theorem Edits.distance_le (edits : Edits source between) (target : List Char) :
    distance source target ≤ distance between target + 1 := by
  cases edits with
  | insert front back character =>
      exact distance_append_le (fun target => (distance_cons_near character back target).2) front
        target
  | remove front back character =>
      exact distance_append_le (fun target => (distance_cons_near character back target).1) front
        target
  | replace front back old new =>
      exact distance_append_le (distance_replaced_le old new back) front target

/-- The distance tells by how many edits one text can be turned into the other. -/
theorem distance_le_iff : distance source target ≤ limit ↔ EditsWithin limit source target := by
  constructor
  · exact (editsWithin_distance source target).mono
  · intro edits
    induction edits with
    | done limit text =>
        rw [distance_self]
        exact Nat.zero_le _
    | @edit limit source between target edits _ induction =>
        have step := edits.distance_le target
        omega

end Suggestion

end ServiceModules
