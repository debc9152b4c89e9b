import ServiceModules.Proofs.Draft.Rejection
import ServiceModules.Proofs.Draft.Step
import ServiceModules.Proofs.Token.Clear

/-!
Reading on behind a whole program. Statements that are finished play no part in what is read, and a
draft that may end here takes the first token of another program as an empty draft does: whatever
else is looked for, nothing begins like the tokens that begin a statement, and none of them goes on
with the statement before.
-/

namespace ServiceModules

/-! ## Tokens that begin a statement -/

namespace Lexeme

theorem eq_docComment_of_spelling? {terminal : Terminal} (unspelled : terminal.spelling? = none)
    (fixed : terminal ≠ .name ∧ terminal ≠ .importPath) : terminal = .docComment := by
  cases terminal <;> cases unspelled
  · rfl
  · exact absurd rfl fixed.2
  · exact absurd rfl fixed.1

/-- Documentation and the fixed texts begin differently, so that only one of them is found. -/
theorem eq_of_lexeme? {terminal other : Terminal} {characters text otherText : List Char}
    (lexed : terminal.lexeme? characters = some text)
    (otherLexed : other.lexeme? characters = some otherText)
    (fixed : terminal ≠ .name ∧ terminal ≠ .importPath)
    (otherFixed : other ≠ .name ∧ other ≠ .importPath) : other = terminal := by
  by_cases documentation : terminal = .docComment
  · by_contra different
    rw [documentation] at lexed different
    cases (docComment?_of_lexeme? otherLexed different).symm.trans lexed
  · by_cases otherDocumentation : other = .docComment
    · rw [otherDocumentation] at otherLexed
      cases (docComment?_of_lexeme? lexed documentation).symm.trans otherLexed
    · cases spelled : terminal.spelling? with
      | none => exact absurd (eq_docComment_of_spelling? spelled fixed) documentation
      | some spelling =>
          cases otherSpelled : other.spelling? with
          | none =>
              exact absurd (eq_docComment_of_spelling? otherSpelled otherFixed)
                otherDocumentation
          | some otherSpelling =>
              have begins := lexeme?_begins lexed
              have otherBegins := lexeme?_begins otherLexed
              rw [lexeme?_of_spelling spelled, Option.ite_none_right_eq_some] at lexed
              rw [lexeme?_of_spelling otherSpelled, Option.ite_none_right_eq_some] at otherLexed
              cases lexed.2
              cases otherLexed.2
              rcases List.prefix_or_prefix_of_prefix begins otherBegins with shorter | longer
              · exact (Token.eq_of_isPrefixOf otherSpelled spelled
                  (List.isPrefixOf_iff_prefix.mpr shorter)).symm
              · exact Token.eq_of_isPrefixOf spelled otherSpelled
                  (List.isPrefixOf_iff_prefix.mpr longer)

theorem scan_of_subset {sought more : List Terminal} {characters : List Char} {found : Found}
    (scanned : scan sought characters = some found) (subset : sought ⊆ more)
    (fixed : ∀ terminal ∈ more, terminal ≠ .name ∧ terminal ≠ .importPath) :
    scan more characters = some found := by
  rcases exists_lexeme?_of_scan scanned with ⟨terminal, member, lexed, classified⟩
  have here := fixed terminal (subset member)
  apply scan_eq_some _ (subset member) lexed
  intro other otherMember text otherLexed
  cases eq_of_lexeme? lexed otherLexed here (fixed other otherMember)
  cases lexed.symm.trans otherLexed
  rw [Terminal.classify_of_ne here.1] at classified ⊢
  rw [← classified]

end Lexeme

namespace Fragment

variable {fragment begun : Fragment} {statement : Statement} {token : Token}

theorem sought_of_close? (closes : fragment.close? = some statement) :
    beginnings ⊆ fragment.sought ∧
      ∀ terminal ∈ fragment.sought, terminal ≠ .name ∧ terminal ≠ .importPath := by
  cases fragment with
  | importing fragment =>
      cases fragment with
      | afterTarget clause last =>
          rw [sought, ImportFragment.sought]
          decide
      | afterRenaming clause last =>
          rw [sought, ImportFragment.sought]
          decide
      | _ => cases closes
  | synonym declared reference =>
      rw [sought]
      decide
  | ended declaration =>
      rw [sought]
      decide
  | _ => cases closes

theorem extend_of_close? (closes : fragment.close? = some statement)
    (begins : begin? token = some begun) : fragment.extend token = none := by
  rcases token with ⟨terminal, text, span⟩
  cases fragment with
  | importing fragment =>
      cases fragment with
      | afterTarget clause last => cases terminal <;> cases begins <;> rfl
      | afterRenaming clause last => cases terminal <;> cases begins <;> rfl
      | _ => cases closes
  | synonym declared reference => rfl
  | ended declaration => rfl
  | _ => cases closes

end Fragment

/-! ## Statements before a draft -/

namespace Draft

def behind (statements : List Statement) (draft : Draft) : Draft :=
  { draft with finished := statements ++ draft.finished }

variable {statements : List Statement} {draft next : Draft} {token : Token} {program : Program}

theorem step_behind (stepped : draft.step token = some next) :
    (draft.behind statements).step token = some (next.behind statements) := by
  rcases draft with ⟨finished, current⟩
  rcases step_cases stepped with ⟨fragment, extended, rfl, extends_, rfl⟩ |
    ⟨rfl, begun, begins, rfl⟩ | ⟨fragment, statement, begun, rfl, stops, closes, begins, rfl⟩
  · simp only [behind, step, extends_]
  · simp only [behind, step, begins, Option.map_some]
  · simp only [behind, step, stops, closes, begins, Option.map_some, List.append_assoc]

theorem finish?_behind (finished : draft.finish? = some program) :
    (draft.behind statements).finish? = some ⟨statements ++ program.statements⟩ := by
  rcases draft with ⟨before, current⟩
  cases current with
  | none =>
      cases finished
      rfl
  | some fragment =>
      rcases Option.map_eq_some_iff.mp finished with ⟨statement, closes, rfl⟩
      simp only [behind, finish?, closes, Option.map_some, List.append_assoc]

/-! ## The first token of another program -/

theorem scan_sequel (finished : draft.finish? = some program) {characters : List Char}
    {found : Lexeme.Found} (scanned : Lexeme.scan Draft.empty.sought characters = some found) :
    Lexeme.scan draft.sought characters = some found := by
  rcases draft with ⟨before, current⟩
  cases current with
  | none => exact scanned
  | some fragment =>
      rcases Option.map_eq_some_iff.mp finished with ⟨statement, closes, _⟩
      obtain ⟨subset, fixed⟩ := Fragment.sought_of_close? closes
      exact Lexeme.scan_of_subset scanned subset fixed

theorem step_sequel (finished : draft.finish? = some program)
    (stepped : Draft.empty.step token = some next) :
    draft.step token = some (next.behind program.statements) := by
  rcases Option.map_eq_some_iff.mp stepped with ⟨begun, begins, rfl⟩
  rcases draft with ⟨before, current⟩
  cases current with
  | none =>
      cases finished
      simp only [step, begins, Option.map_some, behind, empty, List.append_nil]
  | some fragment =>
      rcases Option.map_eq_some_iff.mp finished with ⟨statement, closes, rfl⟩
      simp only [step, Fragment.extend_of_close? closes begins, closes, begins, Option.map_some,
        behind, empty, List.append_nil]

end Draft

namespace Reading

variable {reading later : Reading} {statements : List Statement} {draft : Draft}
  {position : Position} {rest : List Char} {program more : Program}

def behind (statements : List Statement) (reading : Reading) : Reading :=
  { reading with draft := reading.draft.behind statements }

theorem Takes.behind (takes : reading.Takes later) (statements : List Statement) :
    (reading.behind statements).Takes (later.behind statements) := by
  cases takes with
  | token gapped scanned stepped => exact .token gapped scanned (Draft.step_behind stepped)

theorem Reaches.behind (reaches : reading.Reaches later) (statements : List Statement) :
    (reading.behind statements).Reaches (later.behind statements) := by
  induction reaches with
  | refl => exact .refl
  | tail _ takes induction => exact induction.tail (takes.behind statements)

/-- Behind a whole program another one is read as from the beginning. -/
theorem Accepts.sequel (accepts : Accepts ⟨.empty, position, rest⟩ more)
    (finished : draft.finish? = some program) :
    Accepts ⟨draft, position, rest⟩ ⟨program.statements ++ more.statements⟩ := by
  rcases accepts with ⟨last, reaches, gapped, finishedMore⟩
  -- After its first token, the second program is read in a draft that has the first one behind
  -- it.
  rcases reaches.cases_head with rfl | ⟨next, takes, reachesOn⟩
  · cases finishedMore
    have whole : program.statements ++ Draft.empty.finished = program.statements :=
      List.append_nil _
    rw [whole]
    exact ⟨_, .refl, gapped, finished⟩
  · refine ⟨last.behind program.statements, ?_, gapped, Draft.finish?_behind finishedMore⟩
    cases takes with
    | token gappedFirst scanned stepped =>
      exact .head (.token gappedFirst (Draft.scan_sequel finished scanned)
        (Draft.step_sequel finished stepped)) (Reaches.behind reachesOn program.statements)

end Reading

end ServiceModules
