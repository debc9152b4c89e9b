import ServiceModules.Proofs.Draft.Likeness

/-!
Readings at moved places. Where the places behind a reading move as the text goes on, the same
text is read from the draft with moved places to the same end: what comes of it is the program
with moved places. A retouch that keeps the places that were read keeps the draft.
-/

namespace ServiceModules

/-- The retouch keeps all documentation, and moves what is read from `position` on as one piece. -/
structure Retouch.Carries (retouch : Retouch) (position : Position) : Prop where
  quiet : ∀ place, retouch.line? place = none
  uniform : retouch.stop = retouch.start
  along : ∀ characters,
    retouch.start (position.afterAll characters) = (retouch.start position).afterAll characters

def Reading.retouch (retouch : Retouch) (reading : Reading) : Reading :=
  ⟨reading.draft.retouch retouch, retouch.start reading.position, reading.rest⟩

variable {retouch : Retouch}

theorem Retouch.Carries.afterAll {position : Position} (carries : retouch.Carries position)
    (characters : List Char) : retouch.Carries (position.afterAll characters) where
  quiet := carries.quiet
  uniform := carries.uniform
  along := by
    intro more
    rw [carries.along, ← Position.afterAll_append, ← Position.afterAll_append, carries.along]

theorem Draft.exists_step_of_retouch {draft next : Draft} {token : Token}
    (quiet : ∀ place, retouch.line? place = none)
    (stepped : (draft.retouch retouch).step (token.retouch retouch) = some next) :
    ∃ before, draft.step token = some before ∧ before.retouch retouch = next := by
  have same := draft.step_retouch (quiet token.span.start) fun documentation _ =>
    .inl (quiet documentation.start)
  exact Option.map_eq_some_iff.mp (same.symm.trans stepped)

namespace Reading

variable {reading later : Reading}

theorem step_of_carries {draft next : Draft} {position : Position} {gap : List Char}
    {found : Lexeme.Found} (carries : retouch.Carries position)
    (stepped : draft.step ⟨found.terminal, found.text,
      .ofText (position.afterAll gap) found.text⟩ = some next) :
    (draft.retouch retouch).step ⟨found.terminal, found.text,
      .ofText ((retouch.start position).afterAll gap) found.text⟩ =
        some (next.retouch retouch) := by
  have moved := @Draft.step_retouch retouch draft ⟨found.terminal, found.text,
    .ofText (position.afterAll gap) found.text⟩ (carries.quiet _) fun documentation _ =>
      .inl (carries.quiet documentation.start)
  rw [stepped, Token.retouch, Span.retouch, Span.ofText, carries.uniform,
    (carries.afterAll gap).along, carries.along] at moved
  exact moved

theorem Takes.retouched (takes : reading.Takes later) (carries : retouch.Carries reading.position) :
    (reading.retouch retouch).Takes (later.retouch retouch) ∧ retouch.Carries later.position := by
  cases takes with
  | @token draft next position gap rest found gapped scanned stepped =>
    have carries : retouch.Carries position := carries
    refine ⟨?_, (carries.afterAll gap).afterAll _⟩
    rw [← @Draft.sought_retouch retouch draft] at scanned
    have moved := Takes.token gapped scanned (step_of_carries carries stepped)
    rw [← carries.along, ← (carries.afterAll gap).along] at moved
    exact moved

theorem Reaches.retouched (reaches : reading.Reaches later)
    (carries : retouch.Carries reading.position) :
    (reading.retouch retouch).Reaches (later.retouch retouch) ∧
      retouch.Carries later.position := by
  induction reaches with
  | refl => exact ⟨.refl, carries⟩
  | tail _ takes induction =>
    rcases induction with ⟨reachesBetween, carriesBetween⟩
    rcases takes.retouched carriesBetween with ⟨takesRetouched, carriesLater⟩
    exact ⟨reachesBetween.tail takesRetouched, carriesLater⟩

/-- What is accepted from a draft is, retouched, what is accepted from the retouched draft. -/
theorem Accepts.retouched {program : Program} (accepts : reading.Accepts program)
    (carries : retouch.Carries reading.position) :
    (reading.retouch retouch).Accepts (program.retouch retouch) := by
  rcases accepts with ⟨last, reaches, gapped, finished⟩
  refine ⟨last.retouch retouch, (reaches.retouched carries).1, gapped, ?_⟩
  rw [Reading.retouch, Draft.finish?_retouch, finished]
  rfl

theorem Takes.of_retouch (takes : (reading.retouch retouch).Takes later)
    (carries : retouch.Carries reading.position) :
    ∃ before, reading.Takes before ∧ before.retouch retouch = later ∧
      retouch.Carries before.position := by
  rcases reading with ⟨draft, position, characters⟩
  generalize moved : Reading.retouch retouch ⟨draft, position, characters⟩ = start at takes
  cases takes with
  | @token _ _ _ gap rest found gapped scanned stepped =>
    cases moved
    have carries : retouch.Carries position := carries
    rw [Draft.sought_retouch] at scanned
    have sameToken : Token.retouch retouch ⟨found.terminal, found.text,
        .ofText (position.afterAll gap) found.text⟩ = ⟨found.terminal, found.text,
        .ofText ((retouch.start position).afterAll gap) found.text⟩ := by
      simp only [Token.retouch, Span.retouch, Span.ofText, carries.uniform, carries.along,
        (carries.afterAll gap).along]
    rw [← sameToken] at stepped
    rcases Draft.exists_step_of_retouch carries.quiet stepped with ⟨before, steppedBefore, rfl⟩
    refine ⟨_, .token gapped scanned steppedBefore, ?_, (carries.afterAll gap).afterAll _⟩
    simp only [Reading.retouch, carries.along, (carries.afterAll gap).along]

theorem Reaches.of_retouch (reaches : (reading.retouch retouch).Reaches later)
    (carries : retouch.Carries reading.position) :
    ∃ before, reading.Reaches before ∧ before.retouch retouch = later ∧
      retouch.Carries before.position := by
  induction reaches with
  | refl => exact ⟨reading, .refl, rfl, carries⟩
  | tail _ takes induction =>
    rcases induction with ⟨between, reachesBetween, rfl, carriesBetween⟩
    rcases takes.of_retouch carriesBetween with ⟨before, takesBefore, same, carriesBefore⟩
    exact ⟨before, reachesBetween.tail takesBefore, same, carriesBefore⟩

theorem Accepts.of_retouch {program : Program} (accepts : (reading.retouch retouch).Accepts program)
    (carries : retouch.Carries reading.position) :
    ∃ before, reading.Accepts before ∧ before.retouch retouch = program := by
  rcases accepts with ⟨last, reaches, gapped, finished⟩
  rcases reaches.of_retouch carries with ⟨lastBefore, reachesBefore, rfl, _⟩
  have finished : (lastBefore.draft.retouch retouch).finish? = some program := finished
  rw [lastBefore.draft.finish?_retouch] at finished
  rcases Option.map_eq_some_iff.mp finished with ⟨before, finishedBefore, same⟩
  exact ⟨before, ⟨lastBefore, reachesBefore, gapped, finishedBefore⟩, same⟩

theorem Reaches.retouch_draft (reaches : reading.Reaches later)
    (quiet : ∀ place, retouch.line? place = none) (uniform : retouch.stop = retouch.start)
    (kept : ∀ place, place.AtMost later.position → retouch.start place = place)
    (same : reading.draft.retouch retouch = reading.draft) :
    later.draft.retouch retouch = later.draft := by
  induction reaches with
  | refl => exact same
  | @tail between last _ takes induction =>
    have earlier := takes.position_before.atMost
    have sameBetween := induction fun place early => kept place (early.trans earlier)
    cases takes with
    | @token draft next position gap rest found gapped scanned stepped =>
      have sameToken : Token.retouch retouch ⟨found.terminal, found.text,
          .ofText (position.afterAll gap) found.text⟩ = ⟨found.terminal, found.text,
          .ofText (position.afterAll gap) found.text⟩ := by
        simp only [Token.retouch, Span.retouch, Span.ofText, uniform,
          kept _ (Position.atMost_afterAll _ found.text), kept _ (.refl _)]
      have sameBetween : draft.retouch retouch = draft := sameBetween
      have again := stepped
      rw [← sameBetween, ← sameToken] at again
      rcases Draft.exists_step_of_retouch quiet again with ⟨before, steppedBefore, same⟩
      rw [stepped] at steppedBefore
      cases steppedBefore
      exact same

end Reading

end ServiceModules
