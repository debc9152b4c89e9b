import ServiceModules.Proofs.Source.Excerpt
import ServiceModules.Proofs.Token.Clear

/-!
Texts with a carriage return before every line feed. A carriage return is a blank, and the line
feed behind it takes back the column that it took: places, gaps and tokens are as before. Only
documentation, which goes on to the end of its line, ends with the carriage return.
-/

namespace ServiceModules

namespace Text

/-- The text with a carriage return before every line feed. -/
def withReturns (text : List Char) : List Char :=
  text.flatMap fun character => if character = '\n' then ['\r', '\n'] else [character]

variable {character : Char} {text : List Char}

theorem withReturns_append (left right : List Char) :
    withReturns (left ++ right) = withReturns left ++ withReturns right := List.flatMap_append

theorem withReturns_newline (rest : List Char) :
    withReturns ('\n' :: rest) = '\r' :: '\n' :: withReturns rest := rfl

theorem withReturns_cons (other : character ≠ '\n') (rest : List Char) :
    withReturns (character :: rest) = character :: withReturns rest := by
  rw [withReturns, List.flatMap_cons, if_neg other]
  rfl

theorem withReturns_of_single (single : '\n' ∉ text) : withReturns text = text := by
  induction text with
  | nil => rfl
  | cons character rest induction =>
      rw [List.mem_cons, not_or] at single
      rw [withReturns_cons (Ne.symm single.1), induction single.2]

theorem exists_of_withReturns_eq_slash {rest : List Char} (slash : withReturns text = '/' :: rest) :
    ∃ more, text = '/' :: more ∧ withReturns more = rest := by
  cases text with
  | nil => cases slash
  | cons character more =>
      by_cases feed : character = '\n'
      · rw [feed] at slash
        cases slash
      · rw [withReturns_cons feed] at slash
        cases slash
        exact ⟨more, rfl, rfl⟩

theorem takeWhile_withReturns (text : List Char) :
    (withReturns text).takeWhile (· ≠ '\n') =
      text.takeWhile (· ≠ '\n') ++ if '\n' ∈ text then ['\r'] else [] := by
  induction text with
  | nil => rfl
  | cons character rest induction =>
      by_cases feed : character = '\n'
      · rw [feed, withReturns_newline, if_pos (List.mem_cons_self ..)]
        rfl
      · rw [withReturns_cons feed, List.takeWhile_cons_of_pos (by simpa using feed),
          List.takeWhile_cons_of_pos (by simpa using feed), induction, List.cons_append]
        simp only [List.mem_cons, Ne.symm feed, false_or]

theorem IsVisible.exists_firstLine (visible : IsVisible text) :
    ∃ line below, text = line ++ below ∧ line ≠ [] ∧ '\n' ∉ line ∧
      ∀ stop ∈ below.head?, stop = '\n' := by
  refine ⟨text.takeWhile (· ≠ '\n'), text.dropWhile (· ≠ '\n'),
    List.takeWhile_append_dropWhile.symm, ?_, ?_, ?_⟩
  · rcases visible.exists_head with ⟨character, rest, rfl, other⟩
    rw [List.takeWhile_cons_of_pos (by simpa using other)]
    exact List.cons_ne_nil _ _
  · intro member
    simpa using List.mem_takeWhile_imp member
  · intro stop isNext
    have ended := List.head?_dropWhile_not (· ≠ '\n') text
    rw [isNext] at ended
    simpa using ended

end Text

open Text (withReturns)

theorem Position.afterAll_withReturns (position : Position) (text : List Char) :
    position.afterAll (withReturns text) = position.afterAll text := by
  induction text generalizing position with
  | nil => rfl
  | cons character rest induction =>
      by_cases feed : character = '\n'
      · rw [feed, Text.withReturns_newline, afterAll_cons, afterAll_cons, afterAll_cons, induction]
        rfl
      · rw [Text.withReturns_cons feed, afterAll_cons, afterAll_cons, induction]

namespace Lexeme

variable {text : List Char} {sought : List Terminal} {found : Found}

/-! ## Gaps -/

theorem beginsComment_withReturns (text : List Char) :
    beginsComment (withReturns text) = beginsComment text := by
  rw [Bool.eq_iff_iff, beginsComment_iff, beginsComment_iff]
  constructor
  · rintro ⟨rest, whole, noThird⟩
    rcases Text.exists_of_withReturns_eq_slash whole with ⟨second, rfl, wholeSecond⟩
    rcases Text.exists_of_withReturns_eq_slash wholeSecond with ⟨third, rfl, rfl⟩
    refine ⟨third, rfl, fun slash => noThird ?_⟩
    rcases List.head?_eq_some_iff.mp slash with ⟨more, rfl⟩
    rfl
  · rintro ⟨rest, rfl, noThird⟩
    refine ⟨withReturns rest, rfl, fun slash => noThird ?_⟩
    rcases List.head?_eq_some_iff.mp slash with ⟨more, whole⟩
    rcases Text.exists_of_withReturns_eq_slash whole with ⟨third, rfl, _⟩
    rfl

theorem gapFrom_withReturns (inComment : Bool) (text : List Char) :
    gapFrom inComment (withReturns text) = withReturns (gapFrom inComment text) := by
  induction text generalizing inComment with
  | nil => rfl
  | cons character rest induction =>
      by_cases feed : character = '\n'
      · -- The carriage return stays in a comment that is open, and is a blank otherwise.
        have ends : ∀ more, gapFrom inComment ('\n' :: more) = '\n' :: gapFrom false more := by
          cases inComment <;> exact fun _ => rfl
        have goesOn : ∀ more,
            gapFrom inComment ('\r' :: more) = '\r' :: gapFrom inComment more := by
          cases inComment <;> exact fun _ => rfl
        rw [feed, Text.withReturns_newline, goesOn, ends, ends, Text.withReturns_newline, induction]
      · have same := beginsComment_withReturns (character :: rest)
        rw [Text.withReturns_cons feed] at same ⊢
        rw [gapFrom, gapFrom, same]
        simp only [induction]
        split_ifs
        all_goals first
          | rw [Text.withReturns_cons feed]
          | rfl

theorem gap_withReturns (text : List Char) : gap (withReturns text) = withReturns (gap text) :=
  gapFrom_withReturns false text

/-! ## Tokens -/

theorem docComment?_withReturns (text : List Char) :
    docComment? (withReturns text) =
      (docComment? text).map (· ++ if '\n' ∈ text then ['\r'] else []) := by
  by_cases slashes : ∃ rest, text = '/' :: '/' :: '/' :: rest
  · rcases slashes with ⟨rest, rfl⟩
    have line := Text.takeWhile_withReturns rest
    have same : withReturns ('/' :: '/' :: '/' :: rest) = '/' :: '/' :: '/' :: withReturns rest :=
      rfl
    rw [same, docComment?, docComment?, line, Option.map_some]
    simp only [List.mem_cons, Char.reduceEq, false_or, List.cons_append]
  · have nothing : ∀ {characters : List Char}, (¬ ∃ rest, characters = '/' :: '/' :: '/' :: rest) →
        docComment? characters = none := by
      intro characters other
      unfold docComment?
      split
      · exact absurd ⟨_, rfl⟩ other
      · rfl
    rw [nothing slashes, Option.map_none]
    apply nothing
    rintro ⟨rest, whole⟩
    rcases Text.exists_of_withReturns_eq_slash whole with ⟨second, rfl, wholeSecond⟩
    rcases Text.exists_of_withReturns_eq_slash wholeSecond with ⟨third, rfl, wholeThird⟩
    rcases Text.exists_of_withReturns_eq_slash wholeThird with ⟨more, rfl, _⟩
    exact slashes ⟨more, rfl⟩

theorem scan_withReturns_of_none (visible : Text.IsVisible text)
    (undocumented : docComment? text = none) :
    scan sought (withReturns text) = scan sought text := by
  rcases visible.exists_firstLine with ⟨line, below, rfl, nonempty, single, ended⟩
  have also := docComment?_withReturns (line ++ below)
  rw [undocumented, Option.map_none] at also
  rw [Text.withReturns_append, Text.withReturns_of_single single] at also ⊢
  rw [scan_append_stop nonempty _ (.inr (.inr also)),
    scan_append_stop nonempty _ (.inr (.inr undocumented))]
  · intro stop isNext
    rw [ended stop isNext]
    rfl
  · cases below with
    | nil => rintro stop ⟨⟩
    | cons feed more =>
        rw [ended feed rfl]
        rintro stop ⟨⟩
        rfl

theorem scan_eq_of_docComment? {line : List Char} (documented : docComment? text = some line) :
    scan sought text =
      if .docComment ∈ sought then some ⟨.docComment, line⟩ else none := by
  split
  · next member => exact scan_of_docComment? member documented
  · next absent =>
    cases scanned : scan sought text with
    | none => rfl
    | some found =>
        rcases exists_lexeme?_of_scan scanned with ⟨terminal, member, lexed, _⟩
        have other : terminal ≠ .docComment := fun same => absent (same ▸ member)
        cases (docComment?_of_lexeme? lexed other).symm.trans documented

theorem scan_withReturns_eq_none_iff (visible : Text.IsVisible text) :
    scan sought (withReturns text) = none ↔ scan sought text = none := by
  cases documented : docComment? text with
  | none => rw [scan_withReturns_of_none visible documented]
  | some line =>
      have also := docComment?_withReturns text
      rw [documented, Option.map_some] at also
      rw [scan_eq_of_docComment? documented, scan_eq_of_docComment? also]
      split <;> simp

/-- The token that is found in place of another one, and the text behind it, when every line feed
has a carriage return before it. -/
inductive Found.Returned : Found → List Char → Found → List Char → Prop
  | same (found : Found) (rest : List Char) : Returned found rest found (withReturns rest)
  | line (text rest : List Char) :
      Returned ⟨.docComment, text⟩ ('\n' :: rest)
        ⟨.docComment, text ++ ['\r']⟩ ('\n' :: withReturns rest)

theorem exists_scan_withReturns {rest : List Char}
    (visible : Text.IsVisible (found.text ++ rest))
    (scanned : scan sought (found.text ++ rest) = some found) :
    ∃ other behind, found.Returned rest other behind ∧
      withReturns (found.text ++ rest) = other.text ++ behind ∧
      scan sought (other.text ++ behind) = some other := by
  cases documented : docComment? (found.text ++ rest) with
  | none =>
      have single : '\n' ∉ found.text := by
        rcases exists_lexeme?_of_scan scanned with ⟨terminal, _, lexed, _⟩
        exact not_mem_of_lexeme? rfl (.inl rfl) lexed
      have whole : withReturns (found.text ++ rest) = found.text ++ withReturns rest := by
        rw [Text.withReturns_append, Text.withReturns_of_single single]
      refine ⟨found, withReturns rest, .same found rest, whole, ?_⟩
      rw [← whole, scan_withReturns_of_none visible documented, scanned]
  | some line =>
      rw [scan_eq_of_docComment? documented] at scanned
      split at scanned
      · next member =>
        cases scanned
        have single := not_mem_of_docComment? documented
        cases rest with
        | nil =>
            refine ⟨_, _, .same _ _, ?_, scan_of_docComment? member documented⟩
            rw [List.append_nil, Text.withReturns_of_single single]
            exact (List.append_nil _).symm
        -- Documentation takes the carriage return before the line feed.
        | cons feed rest =>
            cases head?_behind_docComment? documented feed rfl
            have also := docComment?_withReturns (line ++ '\n' :: rest)
            have broken : '\n' ∈ line ++ '\n' :: rest := by simp
            have whole : withReturns (line ++ '\n' :: rest) =
                (line ++ ['\r']) ++ '\n' :: withReturns rest := by
              rw [Text.withReturns_append, Text.withReturns_of_single single,
                Text.withReturns_newline, List.append_assoc, List.singleton_append]
            rw [documented, Option.map_some, if_pos broken, whole] at also
            exact ⟨_, _, .line line rest, whole, scan_of_docComment? member also⟩
      · cases scanned

end Lexeme

end ServiceModules
