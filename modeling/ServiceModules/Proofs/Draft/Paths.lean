import ServiceModules.Proofs.Draft.Reading
import ServiceModules.Proofs.Draft.Step
import ServiceModules.Proofs.Token.Clear

/-!
Import statements that are read. The lexeme of an import path is cut into identifiers by its dots,
and a draft takes the paths of its import statements from such lexemes alone. So every import
statement of a program that is read has a well-formed path, and as it ends behind a target, it has a
target too.
-/

namespace ServiceModules

/-! ## Lexemes -/

namespace Lexeme

/-- The dots of the rest of a path stand between names. What stands before the first dot may be the
rest of a name. -/
theorem split_pathTail (characters : List Char) :
    ∃ first rest, Text.split '.' (pathTail characters) = first :: rest ∧
      first.all isNameCharacter = true ∧
      (beginsName characters = true → beginsName first = true) ∧
      ∀ part ∈ rest, isIdentifier (String.ofList part) = true := by
  induction characters with
  | nil => exact ⟨[], [], rfl, rfl, fun begins => begins, fun _ member => absurd member (by simp)⟩
  | cons character characters induction =>
      rcases induction with ⟨first, rest, cut, all, begins, identifiers⟩
      by_cases named : isNameCharacter character = true
      · have notDot : character ≠ '.' := by
          rintro rfl
          cases named
        rcases Text.split_cons_of_ne notDot (pathTail characters) with ⟨part, parts, inner, outer⟩
        rw [cut] at inner
        cases inner
        refine ⟨character :: first, rest, ?_, ?_, fun start => start, identifiers⟩
        · rw [pathTail, if_pos named, outer]
        · rw [List.all_cons, named, all]
          rfl
      · have notStart : beginsName (character :: characters) ≠ true := by
          intro start
          rw [isNameCharacter, show isNameStart character = true from start] at named
          exact named rfl
        rw [pathTail, if_neg named]
        split
        · next dotted =>
          rw [Bool.and_eq_true] at dotted
          -- The dot ends the part before it, and a name begins behind it.
          have dot : character = '.' := of_decide_eq_true dotted.1
          rw [dot, Text.split_cons_self, cut]
          refine ⟨[], _, rfl, rfl, fun start => absurd start (dot ▸ notStart), ?_⟩
          intro part member
          rcases List.mem_cons.mp member with rfl | member
          · rw [isIdentifier_iff, String.toList_ofList]
            exact ⟨begins dotted.2, all⟩
          · exact identifiers part member
        · exact ⟨[], [], rfl, rfl, fun start => absurd start notStart,
            fun _ member => absurd member (by simp)⟩

theorem isWellFormed_of_importPath? {characters text : List Char}
    (lexed : importPath? characters = some text) :
    (ImportPath.ofText (String.ofList text)).isWellFormed = true := by
  rw [importPath?] at lexed
  split at lexed
  · next begins =>
    cases lexed
    generalize characters.dropWhile (· = '.') = named at begins
    rcases split_pathTail named with ⟨first, rest, cut, all, starts, identifiers⟩
    have dots : ∀ character ∈ characters.takeWhile (· = '.'), decide (character = '.') = true :=
      fun character member => List.mem_takeWhile_imp (p := fun other => decide (other = '.')) member
    have behind : (pathTail named).dropWhile (· = '.') = pathTail named := by
      cases named with
      | nil => cases begins
      | cons character named =>
          have start : isNameCharacter character = true := by
            rw [isNameCharacter, show isNameStart character = true from begins]
            rfl
          have notDot : ¬decide (character = '.') = true := by
            rw [decide_eq_true_eq]
            rintro rfl
            cases start
          rw [pathTail, if_pos start]
          exact List.dropWhile_cons_of_neg notDot
    rw [ImportPath.isWellFormed_iff, ImportPath.ofText, String.toList_ofList,
      List.dropWhile_append_of_pos dots, behind, if_neg (pathTail_ne_nil begins), cut]
    refine ⟨List.cons_ne_nil _ _, fun part member => ?_⟩
    rcases List.mem_cons.mp member with rfl | member
    · rw [isIdentifier_iff, String.toList_ofList]
      exact ⟨starts begins, all⟩
    · rcases List.mem_map.mp member with ⟨characters, isPart, rfl⟩
      exact identifiers characters isPart
  · cases lexed

theorem importPath?_of_scan {sought : List Terminal} {characters : List Char} {found : Found}
    (scanned : scan sought characters = some found) (isPath : found.terminal = .importPath) :
    importPath? characters = some found.text := by
  have lexed := lexeme?_of_scan scanned (by rw [isPath]; rfl) (by rw [isPath]; decide)
  rwa [isPath] at lexed

end Lexeme

/-! ## Drafts -/

def Fragment.path? : Fragment → Option ImportPath
  | .importing (.afterPath _ path _) => some path
  | .importing (.beforeTarget clause) => some clause.path
  | .importing (.afterTarget clause _) => some clause.path
  | .importing (.afterAs clause _) => some clause.path
  | .importing (.afterRenaming clause _) => some clause.path
  | _ => none

theorem Fragment.path?_of_extend {fragment extended : Fragment} {token : Token}
    (longer : fragment.extend token = some extended) {path : ImportPath}
    (has : extended.path? = some path) :
    fragment.path? = some path ∨
      token.terminal = .importPath ∧ path = .ofText token.string := by
  rcases token with ⟨terminal, text, span⟩
  cases fragment with
  | importing fragment =>
      rcases Option.map_eq_some_iff.mp longer with ⟨next, extends_, rfl⟩
      cases fragment <;> cases terminal <;> cases extends_ <;>
        first
        | exact .inl has
        | exact .inr ⟨rfl, (Option.some.inj has).symm⟩
  | afterName kind declared => cases kind <;> cases terminal <;> cases longer <;> cases has
  | inRecord record place =>
      cases place <;> cases terminal <;> cases record <;> cases longer <;> cases has
  | inInterface declared operations place =>
      cases place <;> cases terminal <;> cases longer <;> cases has
  | inService declared embeds implements place =>
      cases place <;> cases terminal <;> cases longer <;> cases has
  | _ => cases terminal <;> cases longer <;> cases has

theorem Fragment.path?_of_begin? {fragment : Fragment} {token : Token}
    (begins : begin? token = some fragment) : fragment.path? = none := by
  rcases token with ⟨terminal, text, span⟩
  cases terminal <;> cases begins <;> rfl

theorem Fragment.path?_of_close? {fragment : Fragment} {statement : ImportStatement}
    (closes : fragment.close? = some (.importing statement)) :
    fragment.path? = some statement.path := by
  cases fragment with
  | importing fragment => cases fragment <;> cases closes <;> rfl
  | _ => cases closes

namespace Draft

structure HasWellFormedPaths (draft : Draft) : Prop where
  finished : ∀ statement, .importing statement ∈ draft.finished →
    statement.path.isWellFormed = true
  current : ∀ fragment path, draft.current = some fragment → fragment.path? = some path →
    path.isWellFormed = true

variable {draft next : Draft} {token : Token}

theorem HasWellFormedPaths.step (wellFormed : draft.HasWellFormedPaths)
    (lexed : token.terminal = .importPath →
      (ImportPath.ofText token.string).isWellFormed = true)
    (step : draft.step token = some next) : next.HasWellFormedPaths := by
  rcases step_cases step with ⟨fragment, extended, current, longer, rfl⟩ |
    ⟨_, begun, begins, rfl⟩ | ⟨fragment, statement, begun, current, _, closes, begins, rfl⟩
  · refine ⟨wellFormed.finished, ?_⟩
    rintro _ path ⟨⟩ has
    rcases Fragment.path?_of_extend longer has with had | ⟨isPath, rfl⟩
    · exact wellFormed.current fragment path current had
    · exact lexed isPath
  · refine ⟨wellFormed.finished, ?_⟩
    rintro _ path ⟨⟩ has
    rw [Fragment.path?_of_begin? begins] at has
    cases has
  · constructor
    · intro finished member
      rcases List.mem_append.mp member with member | member
      · exact wellFormed.finished finished member
      · rw [← List.mem_singleton.mp member] at closes
        exact wellFormed.current fragment _ current (Fragment.path?_of_close? closes)
    · rintro _ path ⟨⟩ has
      rw [Fragment.path?_of_begin? begins] at has
      cases has

theorem HasWellFormedPaths.finish? (wellFormed : draft.HasWellFormedPaths) {program : Program}
    (finished : draft.finish? = some program) :
    ∀ statement, .importing statement ∈ program.statements →
      statement.path.isWellFormed = true := by
  rw [Draft.finish?] at finished
  cases current : draft.current with
  | none =>
      rw [current] at finished
      cases finished
      exact wellFormed.finished
  | some fragment =>
      rw [current] at finished
      rcases Option.map_eq_some_iff.mp finished with ⟨last, closes, rfl⟩
      intro statement member
      rcases List.mem_append.mp member with member | member
      · exact wellFormed.finished statement member
      · rw [← List.mem_singleton.mp member] at closes
        exact wellFormed.current fragment _ current (Fragment.path?_of_close? closes)

end Draft

namespace Reading

variable {reading later : Reading}

theorem Takes.hasWellFormedPaths (takes : reading.Takes later)
    (wellFormed : reading.draft.HasWellFormedPaths) : later.draft.HasWellFormedPaths := by
  cases takes with
  | token _ scanned stepped =>
      exact wellFormed.step
        (fun isPath => Lexeme.isWellFormed_of_importPath?
          (Lexeme.importPath?_of_scan scanned isPath)) stepped

theorem Reaches.hasWellFormedPaths (reaches : reading.Reaches later)
    (wellFormed : reading.draft.HasWellFormedPaths) : later.draft.HasWellFormedPaths := by
  induction reaches with
  | refl => exact wellFormed
  | tail _ takes induction => exact takes.hasWellFormedPaths induction

end Reading

theorem Program.isWellFormed_path_of_parse {text : String} {program : Program}
    (parsed : parse text = .ok program) :
    ∀ statement ∈ program.imports, statement.path.isWellFormed = true := by
  rcases parse_eq_ok_iff.mp parsed with ⟨last, reaches, _, finished⟩
  have empty : (Reading.start text.toList).draft.HasWellFormedPaths :=
    ⟨fun _ member => absurd member List.not_mem_nil, fun _ _ current => by cases current⟩
  intro statement member
  rcases List.mem_filterMap.mp member with ⟨other, isStatement, imports⟩
  cases other with
  | importing read =>
      cases imports
      exact (reaches.hasWellFormedPaths empty).finish? finished statement isStatement
  | declaring declaration => cases imports

/-! ## Targets -/

namespace Draft

def HasClosed (draft : Draft) : Prop :=
  ∀ statement ∈ draft.finished, ∃ fragment : Fragment, fragment.close? = some statement

variable {draft next : Draft} {token : Token}

theorem HasClosed.concat (closed : draft.HasClosed) {fragment : Fragment} {last : Statement}
    (closes : fragment.close? = some last) :
    ∀ statement ∈ draft.finished ++ [last], ∃ fragment : Fragment,
      fragment.close? = some statement := by
  intro statement member
  rcases List.mem_append.mp member with member | member
  · exact closed statement member
  · rw [List.mem_singleton.mp member]
    exact ⟨fragment, closes⟩

theorem HasClosed.step (closed : draft.HasClosed) (step : draft.step token = some next) :
    next.HasClosed := by
  rcases step_cases step with ⟨_, _, _, _, rfl⟩ | ⟨_, _, _, rfl⟩ | ⟨_, _, _, _, _, closes, _, rfl⟩
  · exact closed
  · exact closed
  · exact closed.concat closes

theorem HasClosed.finish? (closed : draft.HasClosed) {program : Program}
    (finished : draft.finish? = some program) :
    ∀ statement ∈ program.statements, ∃ fragment : Fragment,
      fragment.close? = some statement := by
  rw [Draft.finish?] at finished
  cases current : draft.current with
  | none =>
      rw [current] at finished
      cases finished
      exact closed
  | some fragment =>
      rw [current] at finished
      rcases Option.map_eq_some_iff.mp finished with ⟨last, closes, rfl⟩
      exact closed.concat closes

end Draft

theorem Reading.Reaches.hasClosed {reading later : Reading} (reaches : reading.Reaches later)
    (closed : reading.draft.HasClosed) : later.draft.HasClosed := by
  induction reaches with
  | refl => exact closed
  | tail _ takes induction =>
      cases takes with
      | token _ _ stepped => exact induction.step stepped

theorem Fragment.targets_of_close? {fragment : Fragment} {statement : ImportStatement}
    (closes : fragment.close? = some (.importing statement)) : statement.targets ≠ [] := by
  cases fragment with
  | importing fragment =>
      cases fragment <;> cases closes <;>
        exact List.append_ne_nil_of_right_ne_nil _ (List.cons_ne_nil _ _)
  | _ => cases closes

theorem Program.targets_of_parse {text : String} {program : Program}
    (parsed : parse text = .ok program) :
    ∀ statement ∈ program.imports, statement.targets ≠ [] := by
  rcases parse_eq_ok_iff.mp parsed with ⟨last, reaches, _, finished⟩
  have empty : (Reading.start text.toList).draft.HasClosed := fun _ member =>
    absurd member List.not_mem_nil
  intro statement member
  rcases List.mem_filterMap.mp member with ⟨other, isStatement, imports⟩
  rcases (reaches.hasClosed empty).finish? finished other isStatement with ⟨fragment, closes⟩
  cases other with
  | importing read =>
      cases imports
      exact Fragment.targets_of_close? closes
  | declaring declaration => cases imports

end ServiceModules
