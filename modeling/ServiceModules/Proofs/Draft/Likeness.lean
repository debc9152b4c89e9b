import ServiceModules.Proofs.Draft.Reading
import ServiceModules.Proofs.Draft.Retouch

/-!
Readings of one text from drafts that are alike. Places have no influence on what is read, and
neither has documentation: from drafts that differ in places and in lines before documentation, the
same text is read to the same end, up to these differences.
-/

namespace ServiceModules

/-- The other draft is this one with these lines put in, up to places. -/
def Draft.IsLike (line? : Position → Option String) (draft other : Draft) : Prop :=
  draft.retouch (.levelling line?) = other.retouch .erasing

variable {line? : Position → Option String}

namespace Draft

variable {draft other : Draft}

theorem IsLike.sought_eq (like : IsLike line? draft other) : other.sought = draft.sought := by
  have here : (draft.retouch (.levelling line?)).sought = draft.sought := draft.sought_retouch
  rw [← here, like, other.sought_retouch]

theorem IsLike.step (like : IsLike line? draft other) {terminal : Terminal} {text : List Char}
    {span : Span} (otherSpan : Span) (quiet : line? span.start = none)
    (written : ∀ documentation ∈ draft.documentation?,
      line? documentation.start = none ∨ documentation.lines ≠ [])
    {next : Draft} (stepped : draft.step ⟨terminal, text, span⟩ = some next) :
    ∃ otherNext, other.step ⟨terminal, text, otherSpan⟩ = some otherNext ∧
      IsLike line? next otherNext := by
  have here := @Draft.step_retouch (.levelling line?) draft ⟨terminal, text, span⟩ quiet
    written
  have there := @Draft.step_retouch .erasing other ⟨terminal, text, otherSpan⟩ rfl
    fun _ _ => .inl rfl
  have sameToken : Token.retouch (.levelling line?) ⟨terminal, text, span⟩ =
      Token.retouch .erasing ⟨terminal, text, otherSpan⟩ := rfl
  rw [like, sameToken, there, stepped] at here
  rcases Option.map_eq_some_iff.mp here with ⟨otherNext, otherStepped, same⟩
  exact ⟨otherNext, otherStepped, same.symm⟩

theorem IsLike.finish? (like : IsLike line? draft other) {program : Program}
    (finished : draft.finish? = some program) :
    ∃ otherProgram, other.finish? = some otherProgram ∧
      otherProgram.withoutPlaces = program.retouch (.levelling line?) := by
  have here := @Draft.finish?_retouch (.levelling line?) draft
  rw [like, other.finish?_retouch, finished] at here
  exact Option.map_eq_some_iff.mp here

end Draft

namespace Reading

variable {reading later other : Reading}

theorem Takes.lines_ne_nil (takes : reading.Takes later) :
    ∀ documentation ∈ later.draft.documentation?, documentation.lines ≠ [] := by
  cases takes with
  | token _ _ stepped => exact Draft.lines_ne_nil_of_step stepped

theorem Takes.like (takes : reading.Takes later)
    (like : Draft.IsLike line? reading.draft other.draft) (same : other.rest = reading.rest)
    (quiet : ∀ start, reading.position.AtMost start → line? start = none)
    (written : ∀ documentation ∈ reading.draft.documentation?, documentation.lines ≠ []) :
    ∃ otherLater, other.Takes otherLater ∧
      Draft.IsLike line? later.draft otherLater.draft ∧ otherLater.rest = later.rest := by
  rcases other with ⟨otherDraft, otherPosition, _⟩
  cases takes with
  | @token draft next position gap rest found gapped scanned stepped =>
      cases same
      have quietHere := quiet _ (Position.atMost_afterAll position gap)
      rcases like.step (.ofText (otherPosition.afterAll gap) found.text) quietHere
        (fun documentation isOpen => .inr (written documentation isOpen)) stepped with
        ⟨otherNext, otherStepped, likeNext⟩
      rw [← like.sought_eq] at scanned
      exact ⟨_, .token gapped scanned otherStepped, likeNext, rfl⟩

theorem Reaches.like (reaches : reading.Reaches later)
    (like : Draft.IsLike line? reading.draft other.draft) (same : other.rest = reading.rest)
    (quiet : ∀ start, reading.position.AtMost start → line? start = none)
    (written : ∀ documentation ∈ reading.draft.documentation?, documentation.lines ≠ []) :
    ∃ otherLater, other.Reaches otherLater ∧
      Draft.IsLike line? later.draft otherLater.draft ∧ otherLater.rest = later.rest := by
  induction reaches using Relation.ReflTransGen.head_induction_on generalizing other with
  | refl => exact ⟨other, .refl, like, same⟩
  | head takes _ induction =>
      rcases takes.like like same quiet written with ⟨otherNext, otherTakes, likeNext, sameNext⟩
      rcases induction likeNext sameNext
        (fun start atMost => quiet start (takes.position_before.atMost.trans atMost))
        takes.lines_ne_nil with ⟨otherLater, otherReaches, likeLater, sameLater⟩
      exact ⟨otherLater, .head otherTakes otherReaches, likeLater, sameLater⟩

theorem Accepts.like {program : Program} (accepts : reading.Accepts program)
    (like : Draft.IsLike line? reading.draft other.draft) (same : other.rest = reading.rest)
    (quiet : ∀ start, reading.position.AtMost start → line? start = none)
    (written : ∀ documentation ∈ reading.draft.documentation?, documentation.lines ≠ []) :
    ∃ otherProgram, other.Accepts otherProgram ∧
      otherProgram.withoutPlaces = program.retouch (.levelling line?) := by
  rcases accepts with ⟨last, reaches, gapped, finished⟩
  rcases reaches.like like same quiet written with ⟨otherLast, otherReaches, likeLast, sameLast⟩
  rcases likeLast.finish? finished with ⟨otherProgram, otherFinished, sameProgram⟩
  exact ⟨otherProgram, ⟨otherLast, otherReaches, by rw [sameLast]; exact gapped, otherFinished⟩,
    sameProgram⟩

/-- A reading knows nothing of what begins where it has come to, or later. -/
structure IsSettled (reading : Reading) : Prop where
  written : ∀ documentation ∈ reading.draft.documentation?, documentation.lines ≠ []
  early : ∀ line? : Position → Option String,
    (∀ start, start.Before reading.position → line? start = none) →
    Draft.IsLike line? reading.draft reading.draft

theorem IsSettled.start (characters : List Char) : (start characters).IsSettled where
  written := by
    intro documentation isOpen
    cases isOpen
  early := fun _ _ => rfl

theorem IsSettled.step (settled : reading.IsSettled) (takes : reading.Takes later) :
    later.IsSettled where
  written := takes.lines_ne_nil
  early := by
    intro line? quiet
    have before := takes.position_before
    cases takes with
    | @token draft next position gap rest found gapped scanned stepped =>
        have atMost := Position.atMost_afterAll position gap
        have fresh := Position.before_afterAll (position.afterAll gap)
          (Lexeme.length_pos_of_scan scanned)
        have like : Draft.IsLike line? draft draft :=
          settled.early line? fun start earlier => quiet start (earlier.trans before)
        rcases like.step (.ofText (position.afterAll gap) found.text) (quiet _ fresh)
          (fun documentation isOpen => .inr (settled.written documentation isOpen)) stepped with
          ⟨same, sameStepped, likeNext⟩
        rw [stepped] at sameStepped
        cases sameStepped
        exact likeNext

theorem IsSettled.run (settled : reading.IsSettled) (reaches : reading.Reaches later) :
    later.IsSettled := by
  induction reaches with
  | refl => exact settled
  | tail _ takes induction => exact induction.step takes

end Reading

end ServiceModules
