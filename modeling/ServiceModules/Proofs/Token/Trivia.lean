import Mathlib.Data.List.Basic
import ServiceModules.Proofs.Token.Extent

/-!
What may be put into a gap. Blanks and whole comments before a token belong to the gap before it,
and at the end of a text they go on with the gap there, unless the text ends right behind the
slashes of a comment and the next character is a slash: three slashes begin documentation.
-/

namespace ServiceModules

namespace Text

/-- Whether a slash stands on the last line of a text; `before` tells it of what stands before the
text on its first line. -/
def slashed (before : Bool) : List Char → Bool
  | [] => before
  | character :: rest => slashed (character ≠ '\n' && (before || character = '/')) rest

/-- The text ends with two slashes that are the first ones of its last line. -/
def EndsInSlashes (text : List Char) : Prop :=
  ∃ code, text = code ++ ['/', '/'] ∧ slashed false code = false

variable {before : Bool}

theorem slashed_append (left right : List Char) :
    slashed before (left ++ right) = slashed (slashed before left) right := by
  induction left generalizing before with
  | nil => rfl
  | cons character rest induction => exact induction

theorem slashed_of_not_mem {text : List Char} (absent : '/' ∉ text) :
    slashed false text = false := by
  induction text with
  | nil => rfl
  | cons character rest induction =>
    have other : character ≠ '/' := fun same => absent (same ▸ List.mem_cons_self ..)
    have nothing : (decide (character ≠ '\n') && (false || decide (character = '/'))) = false := by
      rw [decide_eq_false other, Bool.or_false, Bool.and_false]
    rw [slashed, nothing]
    exact induction fun member => absent (List.mem_cons_of_mem _ member)

theorem slashed_slash (rest : List Char) : slashed before ('/' :: rest) = slashed true rest := by
  cases before <;> rfl

theorem slashed_true_cons (character : Char) (rest : List Char) :
    slashed true (character :: rest) = slashed (character ≠ '\n') rest := by
  rw [slashed, Bool.true_or, Bool.and_true]

theorem slashed_blank {character : Char} (blank : Lexeme.isBlank character = true)
    (rest : List Char) : slashed false (character :: rest) = slashed false rest := by
  rcases Lexeme.isBlank_iff.mp blank with rfl | rfl | rfl | rfl | rfl <;> rfl

end Text

namespace Lexeme

open Text (slashed)

variable {inComment : Bool} {blanks tail : List Char}

theorem slashed_of_gapFrom (nonempty : tail ≠ [])
    (gapped : gapFrom inComment (blanks ++ tail) = blanks) : slashed inComment blanks = false := by
  induction blanks generalizing inComment with
  | nil =>
    cases inComment with
    | false => rfl
    | true =>
      cases tail with
      | nil => exact absurd rfl nonempty
      | cons character rest => cases gapped
  | cons character blanks induction =>
    rw [List.cons_append] at gapped
    cases inComment with
    | true =>
      rw [gapFrom_true_cons] at gapped
      rw [Text.slashed_true_cons]
      exact induction (List.cons.inj gapped).2
    | false =>
      rw [gapFrom, if_neg Bool.false_ne_true] at gapped
      split at gapped
      · next blank =>
        rw [Text.slashed_blank blank]
        exact induction (List.cons.inj gapped).2
      · split at gapped
        · next begins =>
          rcases beginsComment_iff.mp begins with ⟨_, equal, _⟩
          rw [(List.cons.inj equal).1, Text.slashed_slash]
          exact induction (List.cons.inj gapped).2
        · cases gapped

/-- A gap up to the end of a text goes on with what follows, in the comment that is open there. Only
the first two slashes of a comment could become documentation. -/
theorem gapFrom_append_whole (gapped : gapFrom inComment blanks = blanks) {other : List Char}
    (apart : other.head? = some '/' →
      ∀ code, blanks = code ++ ['/', '/'] → slashed inComment code = true) :
    gapFrom inComment (blanks ++ other) = blanks ++ gapFrom (slashed inComment blanks) other := by
  induction blanks generalizing inComment with
  | nil => rfl
  | cons character blanks induction =>
    have apartBehind : other.head? = some '/' → ∀ code, blanks = code ++ ['/', '/'] →
        slashed inComment (character :: code) = true := by
      intro slash code equal
      exact apart slash (character :: code) (congrArg (character :: ·) equal)
    rw [List.cons_append]
    cases inComment with
    | true =>
      rw [gapFrom_true_cons] at gapped ⊢
      simp only [Text.slashed_true_cons] at apartBehind ⊢
      rw [induction (List.cons.inj gapped).2 apartBehind]
      rfl
    | false =>
      rw [gapFrom, if_neg Bool.false_ne_true] at gapped ⊢
      split at gapped
      · next blank =>
        simp only [Text.slashed_blank blank] at apartBehind ⊢
        rw [if_pos blank, induction (List.cons.inj gapped).2 apartBehind]
        rfl
      · next notBlank =>
        rw [if_neg notBlank]
        split at gapped
        · next begins =>
          -- The third character of the comment may be the first one behind the gap.
          have again : beginsComment (character :: (blanks ++ other)) = true := by
            rcases beginsComment_iff.mp begins with ⟨rest, equal, noThird⟩
            cases equal
            refine beginsComment_iff.mpr ⟨rest ++ other, rfl, ?_⟩
            cases rest with
            | nil => exact fun slash => Bool.false_ne_true (apart slash [] rfl)
            | cons third rest => exact noThird
          rcases beginsComment_iff.mp begins with ⟨_, equal, _⟩
          have slash := (List.cons.inj equal).1
          simp only [slash, Text.slashed_slash] at apartBehind ⊢
          rw [slash] at again
          rw [if_pos again, induction (List.cons.inj gapped).2 apartBehind]
          rfl
        · cases gapped

theorem gapFrom_newline (gapped : gapFrom inComment blanks = blanks) (more : List Char) :
    gapFrom inComment (blanks ++ '\n' :: more) = blanks ++ '\n' :: gapFrom false more := by
  have apart : ('\n' :: more).head? ≠ some '/' := by simp
  rw [gapFrom_append_whole gapped fun slash => absurd slash apart]
  cases slashed inComment blanks <;> rfl

/-! ## Blanks and comments -/

/-- Blanks and comments in any order, each comment with its line break. -/
inductive IsTrivia : List Char → Prop
  | nil : IsTrivia []
  | blank {character : Char} {rest : List Char} (blank : isBlank character = true)
      (more : IsTrivia rest) : IsTrivia (character :: rest)
  | comment {text rest : List Char} (single : '\n' ∉ text) (noThird : text.head? ≠ some '/')
      (more : IsTrivia rest) : IsTrivia ('/' :: '/' :: (text ++ '\n' :: rest))

theorem gapFrom_true_line {line : List Char} (single : '\n' ∉ line) (rest : List Char) :
    gapFrom true (line ++ '\n' :: rest) = line ++ '\n' :: gapFrom false rest := by
  induction line with
  | nil => rfl
  | cons character line induction =>
    have other : character ≠ '\n' := fun same => single (same ▸ List.mem_cons_self ..)
    rw [List.cons_append, gapFrom_true_cons, decide_eq_true other,
      induction fun member => single (List.mem_cons_of_mem _ member)]
    rfl

namespace IsTrivia

variable {trivia : List Char}

theorem stops (isTrivia : IsTrivia trivia) : ∀ stop ∈ trivia.head?, isStop stop = true := by
  cases isTrivia with
  | nil =>
    rintro stop ⟨⟩
  | blank blank _ =>
    rintro stop ⟨⟩
    exact isStop_iff.mpr (.inl blank)
  | comment _ _ _ =>
    rintro stop ⟨⟩
    rfl

theorem gap_append (isTrivia : IsTrivia trivia) (tail : List Char) :
    gap (trivia ++ tail) = trivia ++ gap tail := by
  simp only [gap]
  induction isTrivia with
  | nil => rfl
  | blank blank _ induction =>
    rw [List.cons_append, gapFrom_false_cons_of_isBlank blank, induction]
    rfl
  | @comment text rest single noThird _ induction =>
    have begins : beginsComment ('/' :: '/' :: (text ++ '\n' :: (rest ++ tail))) = true := by
      refine beginsComment_iff.mpr ⟨_, rfl, ?_⟩
      cases text with
      | nil => simp
      | cons third text => exact noThird
    have slashed : '\n' ∉ '/' :: text := by simpa using single
    have line := gapFrom_true_line slashed (rest ++ tail)
    simp only [List.cons_append, List.append_assoc] at line ⊢
    rw [gapFrom, if_neg Bool.false_ne_true, if_neg (by decide), if_pos begins, line, induction]

theorem gapFrom_eq (isTrivia : IsTrivia trivia) (inComment : Bool) :
    gapFrom inComment trivia = trivia := by
  cases inComment with
  | false =>
    have whole := isTrivia.gap_append []
    rw [List.append_nil] at whole
    exact whole.trans (List.append_nil _)
  | true =>
    induction isTrivia with
    | nil => rfl
    | @blank character rest _ more induction =>
      rw [gapFrom_true_cons]
      by_cases newline : character = '\n'
      · have whole := more.gap_append []
        rw [List.append_nil, gap] at whole
        rw [decide_eq_false (not_not.mpr newline), whole]
        exact congrArg (character :: ·) (List.append_nil _)
      · rw [decide_eq_true newline, induction]
    | @comment text rest single _ more _ =>
      have slashed : '\n' ∉ '/' :: '/' :: text := by simpa using single
      have whole := more.gap_append []
      rw [List.append_nil] at whole
      have line := gapFrom_true_line slashed rest
      rw [← gap, whole] at line
      exact line.trans (congrArg _ (congrArg _ (List.append_nil _)))

end IsTrivia

end Lexeme

end ServiceModules
