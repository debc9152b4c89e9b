import ServiceModules.Program.Parse
import ServiceModules.Proofs.Source.Order

/-!
What reading a text keeps. A property of drafts and of the place up to which they were read holds
of the whole run when every token keeps it that begins at that place or later, and then it is known
of the draft that the program was finished from.
-/

namespace ServiceModules

namespace Draft

structure Follows (position : Position) (token : Token) : Prop where
  start : position.AtMost token.span.start
  stop : token.span.start.Before token.span.stop

/-- The invariant of a reading, step by step, up to the finished program. -/
theorem read_invariant {holds : Draft → Position → Prop}
    (keeps : ∀ draft position token next, holds draft position → Follows position token →
      draft.step token = some next → holds next token.span.stop)
    {draft : Draft} {last : Span} {position : Position} {characters : List Char}
    {program : Program} (initially : holds draft position)
    (read : draft.read last position characters = .ok program) :
    ∃ final stop, holds final stop ∧ final.finish? = some program := by
  fun_induction Draft.read draft last position characters with
  | case1 draft last position characters gap remaining found finished =>
      cases read
      exact ⟨draft, position, initially, finished⟩
  | case3 draft last position characters gap start character rest remaining found scanned span
      next stepped shorter induction =>
      have token : Follows position ⟨found.terminal, found.text, span⟩ :=
        { start := Position.atMost_afterAll position gap
          stop := Position.before_afterAll start (Lexeme.length_pos_of_scan scanned) }
      exact induction (keeps draft position _ next initially token stepped) read
  | case2 | case4 | case5 | case6 => cases read

end Draft

end ServiceModules
