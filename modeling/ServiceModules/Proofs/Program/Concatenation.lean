import ServiceModules.Proofs.Draft.Relay
import ServiceModules.Proofs.Draft.Sequel
import ServiceModules.Proofs.Program.Shuffle
import ServiceModules.Proofs.Source.Excerpt
import ServiceModules.Proofs.Token.Trivia

/-!
Programs one behind the other. Two texts that are programs are one program with a line break between
them: it has the statements of the first one and then those of the second one, further down by as
many lines.
-/

namespace ServiceModules

namespace Position

def down (lines : Nat) (position : Position) : Position :=
  ⟨position.line + lines, position.column⟩

theorem down_after (lines : Nat) (position : Position) (character : Char) :
    down lines (position.after character) = (down lines position).after character := by
  rw [after, after]
  split
  · simp only [down, Nat.add_right_comm]
  · rfl

theorem down_afterAll (lines : Nat) (position : Position) (characters : List Char) :
    down lines (position.afterAll characters) = (down lines position).afterAll characters := by
  induction characters generalizing position with
  | nil => rfl
  | cons character rest induction =>
      rw [afterAll_cons, afterAll_cons, induction, down_after]

theorem afterAll_newline (text : List Char) :
    first.afterAll (text ++ ['\n']) = down (text.count '\n' + 1) first := by
  rw [afterAll_append, afterAll_cons, afterAll_nil, after, if_pos rfl, line_afterAll]
  rfl

end Position

theorem Retouch.carries_down (lines : Nat) (position : Position) :
    (Retouch.moving (.uniform (Position.down lines))).Carries position where
  quiet := fun _ => rfl
  uniform := rfl
  along := Position.down_afterAll lines position

namespace Program

def down (lines : Nat) (program : Program) : Program :=
  program.retouch (.moving (.uniform (Position.down lines)))

/-- The statements of one program and then those of another one that stands further down. -/
def followedBy (lines : Nat) (program more : Program) : Program :=
  ⟨program.statements ++ (more.down lines).statements⟩

theorem withoutDocumentation_followedBy (lines : Nat) (program more : Program) :
    (program.followedBy lines more).withoutDocumentation =
      program.withoutDocumentation.followedBy lines more.withoutDocumentation := by
  have below : (more.down lines).withoutDocumentation = more.withoutDocumentation.down lines :=
    more.withoutDocumentation_retouch _
  rw [followedBy, followedBy, ← below, withoutDocumentation, List.map_append]
  rfl

end Program

namespace Reading

variable {left right : List Char} {program more : Program}

theorem Accepts.newline (accepts : (start left).Accepts program)
    (acceptsMore : (start right).Accepts more) :
    (start (left ++ '\n' :: right)).Accepts
      (program.followedBy (left.count '\n' + 1) more) := by
  rcases accepts with ⟨⟨draft, position, rest⟩, reaches, gapped, finished⟩
  rcases reaches.exists_between with ⟨read, whole, place⟩
  rcases reaches.before (List.append_nil _).symm right with ⟨front, same, reachesOn⟩
  have whole : left = read ++ rest := whole
  have same : left = front ++ [] := same
  rw [List.append_nil] at same
  subst same
  have goesOn : Lexeme.gap ((rest ++ ['\n']) ++ right) = (rest ++ ['\n']) ++ Lexeme.gap right := by
    rw [List.append_assoc, List.append_assoc]
    exact Lexeme.gapFrom_newline gapped right
  have target : position.afterAll (rest ++ ['\n']) =
      Position.down (left.count '\n' + 1) .first := by
    have place : position = Position.first.afterAll read := place
    rw [place, ← Position.afterAll_append, ← List.append_assoc, ← whole,
      Position.afterAll_newline]
  have acceptsDown : Accepts ⟨.empty, position.afterAll (rest ++ ['\n']), right⟩
      (more.down (left.count '\n' + 1)) := by
    rw [target]
    exact acceptsMore.retouched (Retouch.carries_down (left.count '\n' + 1) .first)
  rcases (acceptsDown.sequel finished).behind_gap goesOn with ⟨last, reachesLast, ends⟩
  rw [List.append_assoc] at reachesLast
  exact ⟨last, reachesOn.trans reachesLast, ends⟩

end Reading

namespace Program

theorem parse_newline {left right : String} {program more : Program}
    (parsed : parse left = .ok program) (parsedMore : parse right = .ok more) :
    parse (left ++ "\n" ++ right) =
      .ok (program.followedBy (left.toList.count '\n' + 1) more) := by
  rw [parse_eq_ok_iff] at parsed parsedMore ⊢
  rw [String.toList_append, String.toList_append, List.append_assoc]
  exact parsed.newline parsedMore

/-- Two texts that are programs are one program with a line break between them. It has the
statements of both, and those of the second one stand further down by the lines of the first one;
their documentation is the same. -/
theorem ofText_newline {keepsDocumentation : Bool} {uri leftUri rightUri left right : String}
    {program more : Program} (read : ofText keepsDocumentation leftUri left = .ok program)
    (readMore : ofText keepsDocumentation rightUri right = .ok more) :
    ofText keepsDocumentation uri (left ++ "\n" ++ right) =
      .ok (program.followedBy (left.toList.count '\n' + 1) more) := by
  rw [ofText_eq_parse] at read readMore ⊢
  split at read
  · cases read
  · next parsedLeft parsed =>
    split at readMore
    · cases readMore
    · next parsedRight parsedMore =>
      cases read
      cases readMore
      rw [parse_newline parsed parsedMore]
      cases keepsDocumentation with
      | true => rfl
      | false =>
        simp only [Bool.false_eq_true, if_false, withoutDocumentation_followedBy]

/-- A text that ends with an empty comment behind an import that could go on, and documentation
behind it. -/
theorem ofText_newline_commented :
    ∃ program more, ofText true "a" "from lib import A //" = .ok program ∧
      ofText true "b" "/// d\ntype B: A" = .ok more ∧
      ofText true "c" ("from lib import A //" ++ "\n" ++ "/// d\ntype B: A") =
        .ok (program.followedBy 1 more) := by
  have paths : (ofText true "a" "from lib import A //").map
      (fun program => program.imports.map ImportStatement.path) = .ok [⟨0, ["lib"]⟩] := by cbv
  have names : (ofText true "b" "/// d\ntype B: A").map
      (fun program => program.declarations.map Declaration.name) = .ok ["B"] := by cbv
  cases read : ofText true "a" "from lib import A //" with
  | error fault =>
    rw [read] at paths
    cases paths
  | ok program =>
    cases readMore : ofText true "b" "/// d\ntype B: A" with
    | error fault =>
      rw [readMore] at names
      cases names
    | ok more => exact ⟨program, more, rfl, rfl, ofText_newline read readMore⟩

end Program

end ServiceModules
