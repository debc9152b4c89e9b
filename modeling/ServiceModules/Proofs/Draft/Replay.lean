import ServiceModules.Proofs.Draft.Reading
import ServiceModules.Proofs.Draft.Step
import ServiceModules.Proofs.Source.Excerpt
import ServiceModules.Proofs.Token.Clear

/-!
Readings of two texts that agree up to some place. What was read before this place does not depend
on what stands behind it, so that the reading can be done again before another ending of the text,
as long as this ending begins with a blank or a comment, or is empty.
-/

namespace ServiceModules

namespace Reading

variable {reading later : Reading}

theorem Takes.exists_between (takes : reading.Takes later) :
    ∃ between, reading.rest = between ++ later.rest ∧
      later.position = reading.position.afterAll between := by
  cases takes with
  | @token draft next position gap rest found _ _ _ =>
      refine ⟨gap ++ found.text, ?_, ?_⟩
      · rw [List.append_assoc]
      · rw [Position.afterAll_append]

theorem Reaches.exists_between (reaches : reading.Reaches later) :
    ∃ between, reading.rest = between ++ later.rest ∧
      later.position = reading.position.afterAll between := by
  induction reaches with
  | refl => exact ⟨[], rfl, rfl⟩
  | tail _ takes induction =>
      rcases induction with ⟨between, rest, position⟩
      rcases takes.exists_between with ⟨more, restLater, positionLater⟩
      refine ⟨between ++ more, ?_, ?_⟩
      · rw [rest, restLater, List.append_assoc]
      · rw [positionLater, position, Position.afterAll_append]

/-- The same reading with `kept` before another ending of the text. -/
def onto (reading : Reading) (kept ending : List Char) : Reading :=
  ⟨reading.draft, reading.position, kept ++ ending⟩

variable {kept tail ending : List Char}

/-- What is found is found again before the other ending. Only documentation could go on there, and
only where it is the last thing that is kept. -/
theorem scan_onto {draft next : Draft} {found : Lexeme.Found} {span : Span}
    (scanned : Lexeme.scan draft.sought (found.text ++ (kept ++ tail)) = some found)
    (stepped : draft.step ⟨found.terminal, found.text, span⟩ = some next)
    (stops : ∀ stop ∈ ending.head?, Lexeme.isStop stop = true)
    (closed : kept = [] → (∀ stop ∈ ending.head?, stop = '\n') ∨
      Text.IsVisible tail ∨ next.finish?.isSome) :
    Lexeme.scan draft.sought (found.text ++ (kept ++ ending)) = some found := by
  rw [← List.append_assoc] at scanned
  have piece : found.text ++ kept ≠ [] := Lexeme.append_ne_nil_of_scan scanned
  have alone : Lexeme.scan draft.sought (found.text ++ kept) = some found := by
    apply Lexeme.scan_of_within piece scanned
    rw [List.length_append]
    exact Nat.le_add_right _ _
  rw [← List.append_assoc, Lexeme.scan_append_stop piece stops, alone]
  -- Only documentation goes on up to the end of a line.
  by_cases commented : found.terminal = .docComment
  · rw [List.append_assoc] at scanned
    have newline := Lexeme.head?_behind_docComment? (Lexeme.docComment?_of_scan scanned commented)
    cases kept with
    | nil =>
        rcases closed rfl with broken | ⟨first, rest, rfl, notBlank⟩ | finished
        · exact .inr (.inl broken)
        · cases newline first rfl
          cases notBlank
        · rw [Draft.finish?_of_docComment commented stepped] at finished
          cases finished
    | cons first rest =>
        cases newline first rfl
        exact .inl (List.mem_append_right _ (List.mem_cons_self ..))
  · exact .inr (.inr (Lexeme.docComment?_of_scan_other alone commented _))

theorem Takes.onto (takes : reading.Takes later) (same : later.rest = kept ++ tail)
    (stops : ∀ stop ∈ ending.head?, Lexeme.isStop stop = true)
    (closed : kept = [] → (∀ stop ∈ ending.head?, stop = '\n') ∨
      Text.IsVisible tail ∨ later.draft.finish?.isSome) :
    ∃ front, reading.rest = front ++ tail ∧ front ≠ [] ∧
      (reading.onto front ending).Takes (later.onto kept ending) := by
  cases takes with
  | @token draft next position gap rest found gapped scanned stepped =>
      have same : rest = kept ++ tail := same
      subst same
      have scannedAgain := scan_onto scanned stepped stops closed
      have gappedAgain : Lexeme.gap (gap ++ (found.text ++ (kept ++ ending))) = gap := by
        have tokens : found.text ++ (kept ++ tail) ≠ [] := Lexeme.append_ne_nil_of_scan scanned
        have nothing := Lexeme.gap_of_scan scannedAgain []
        rw [List.append_nil, Lexeme.gap] at nothing
        rw [Lexeme.gap, Lexeme.gapFrom_append tokens gapped, nothing, List.append_nil]
      refine ⟨gap ++ (found.text ++ kept), by simp only [List.append_assoc], ?_, ?_⟩
      · have nonempty : found.text ++ kept ≠ [] := Lexeme.append_ne_nil_of_scan scanned
        exact List.append_ne_nil_of_right_ne_nil _ nonempty
      · have again := @Takes.token draft next position gap _ found gappedAgain scannedAgain stepped
        simp only [Reading.onto, List.append_assoc]
        exact again

/-- A reading that has come to some place comes to it before every such ending. Behind all tokens
but the last one something of the text is kept. -/
theorem Reaches.onto (reaches : reading.Reaches later) (same : later.rest = kept ++ tail)
    (stops : ∀ stop ∈ ending.head?, Lexeme.isStop stop = true)
    (closed : kept = [] → (∀ stop ∈ ending.head?, stop = '\n') ∨
      Text.IsVisible tail ∨ later.draft.finish?.isSome) :
    ∃ front, reading.rest = front ++ tail ∧
      (reading.onto front ending).Reaches (later.onto kept ending) := by
  induction reaches generalizing kept with
  | refl => exact ⟨kept, same, .refl⟩
  | tail _ takes induction =>
      rcases takes.onto same stops closed with ⟨middle, rest, nonempty, takesAgain⟩
      rcases induction rest fun nothing => absurd nothing nonempty with
        ⟨front, restFront, reachesAgain⟩
      exact ⟨front, restFront, reachesAgain.tail takesAgain⟩

def before (reading : Reading) (kept ending : List Char) : Reading :=
  ⟨reading.draft, reading.position, kept ++ '\n' :: ending⟩

theorem Reaches.before (reaches : reading.Reaches later) (same : later.rest = kept ++ tail)
    (ending : List Char) :
    ∃ front, reading.rest = front ++ tail ∧
      (reading.before front ending).Reaches (later.before kept ending) := by
  have newline : ∀ stop ∈ ('\n' :: ending).head?, stop = '\n' := by
    rintro stop ⟨⟩
    rfl
  exact reaches.onto same (fun stop isHead => by rw [newline stop isHead]; rfl)
    fun _ => .inl newline

theorem Reaches.cut (reaches : reading.Reaches later) (same : later.rest = kept ++ tail) :
    ∃ front, reading.rest = front ++ tail ∧
      Reaches ⟨reading.draft, reading.position, front⟩ ⟨later.draft, later.position, kept⟩ := by
  have nothing : ∀ stop ∈ ([] : List Char).head?, stop = '\n' := by
    rintro stop ⟨⟩
  rcases reaches.onto same (fun stop isHead => by rw [nothing stop isHead]; rfl)
    (fun _ => .inl nothing) with ⟨front, rest, reachesAlone⟩
  rw [Reading.onto, Reading.onto, List.append_nil, List.append_nil] at reachesAlone
  exact ⟨front, rest, reachesAlone⟩

end Reading

end ServiceModules
