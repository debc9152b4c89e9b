import ServiceModules.Draft.Step

/-!
The three ways in which a draft takes a token: the token goes on with the open statement, it begins
the first statement, or it closes the open statement and begins another one.
-/

namespace ServiceModules

namespace Draft

variable {draft next : Draft} {token : Token}

theorem step_cases (step : draft.step token = some next) :
    (∃ fragment extended, draft.current = some fragment ∧
        fragment.extend token = some extended ∧ next = ⟨draft.finished, some extended⟩) ∨
      (draft.current = none ∧ ∃ begun, Fragment.begin? token = some begun ∧
        next = ⟨draft.finished, some begun⟩) ∨
      ∃ fragment statement begun, draft.current = some fragment ∧
        fragment.extend token = none ∧ fragment.close? = some statement ∧
        Fragment.begin? token = some begun ∧
        next = ⟨draft.finished ++ [statement], some begun⟩ := by
  rw [Draft.step] at step
  cases current : draft.current with
  | none =>
      rw [current] at step
      rcases Option.map_eq_some_iff.mp step with ⟨begun, begins, rfl⟩
      exact .inr (.inl ⟨rfl, begun, begins, rfl⟩)
  | some fragment =>
      rw [current] at step
      simp only at step
      cases extended : fragment.extend token with
      | some longer =>
          rw [extended] at step
          cases step
          exact .inl ⟨fragment, longer, rfl, extended, rfl⟩
      | none =>
          rw [extended] at step
          cases closes : fragment.close? with
          | none =>
              rw [closes] at step
              cases step
          | some statement =>
              rw [closes] at step
              rcases Option.map_eq_some_iff.mp step with ⟨begun, begins, rfl⟩
              exact .inr (.inr ⟨fragment, statement, begun, rfl, extended, closes, begins, rfl⟩)

end Draft

/-! ## Behind documentation -/

theorem Fragment.close?_of_docComment {fragment extended : Fragment} {token : Token}
    (commented : token.terminal = .docComment) (longer : fragment.extend token = some extended) :
    extended.close? = none := by
  rcases token with ⟨terminal, text, span⟩
  cases commented
  cases fragment with
  | importing fragment => cases fragment <;> cases longer
  | afterName kind declared => cases kind <;> cases longer
  | inRecord record place => cases place <;> cases longer <;> rfl
  | inInterface declared operations place => cases place <;> cases longer <;> rfl
  | inService declared embeds implements place => cases place <;> cases longer
  | _ => cases longer <;> rfl

theorem Draft.finish?_of_docComment {draft next : Draft} {token : Token}
    (commented : token.terminal = .docComment) (step : draft.step token = some next) :
    next.finish? = none := by
  have begun_open : ∀ begun, Fragment.begin? token = some begun → begun.close? = none := by
    rcases token with ⟨terminal, text, span⟩
    cases commented
    rintro begun ⟨⟩
    rfl
  rcases step_cases step with ⟨_, extended, _, longer, rfl⟩ | ⟨_, begun, begins, rfl⟩ |
    ⟨_, _, begun, _, _, _, begins, rfl⟩
  · simp only [finish?, Fragment.close?_of_docComment commented longer, Option.map_none]
  · simp only [finish?, begun_open begun begins, Option.map_none]
  · simp only [finish?, begun_open begun begins, Option.map_none]

end ServiceModules
