import Mathlib.Data.List.TakeWhile
import ServiceModules.Token.Scan

/-!
How far a token reaches. A token is a beginning of the text, and what follows matters only as far
as it could prolong the token: a token that ends inside a piece of the text is found in the piece
alone, and a blank or a slash behind the piece changes nothing.
-/

namespace ServiceModules

namespace Lexeme

/-! ## A token is a beginning of the text -/

theorem gapFrom_begins (inComment : Bool) (characters : List Char) :
    gapFrom inComment characters <+: characters := by
  induction characters generalizing inComment with
  | nil => exact List.prefix_rfl
  | cons character rest induction =>
      rw [gapFrom]
      split
      · exact (List.prefix_cons_inj character).mpr (induction _)
      · split
        · exact (List.prefix_cons_inj character).mpr (induction _)
        · split
          · exact (List.prefix_cons_inj character).mpr (induction _)
          · exact List.nil_prefix

theorem gap_append_drop (characters : List Char) :
    gap characters ++ characters.drop (gap characters).length = characters :=
  List.prefix_iff_eq_append.mp (gapFrom_begins false characters)

theorem pathTail_begins (characters : List Char) : pathTail characters <+: characters := by
  induction characters with
  | nil => exact List.prefix_rfl
  | cons character rest induction =>
      rw [pathTail]
      split
      · exact (List.prefix_cons_inj character).mpr induction
      · split
        · exact (List.prefix_cons_inj character).mpr induction
        · exact List.nil_prefix

theorem name?_begins {characters text : List Char} (found : name? characters = some text) :
    text <+: characters := by
  rw [name?] at found
  split at found
  · cases found
    exact List.takeWhile_prefix _
  · cases found

theorem importPath?_begins {characters text : List Char}
    (found : importPath? characters = some text) : text <+: characters := by
  simp only [importPath?] at found
  split at found
  · cases found
    rcases pathTail_begins (characters.dropWhile (· = '.')) with ⟨rest, named⟩
    refine ⟨rest, ?_⟩
    rw [List.append_assoc, named]
    exact List.takeWhile_append_dropWhile
  · cases found

theorem docComment?_begins {characters text : List Char}
    (found : docComment? characters = some text) : text <+: characters := by
  unfold docComment? at found
  split at found
  · cases found
    exact (List.prefix_append_right_inj ['/', '/', '/']).mpr (List.takeWhile_prefix _)
  · cases found

theorem lexeme?_of_spelling {terminal : Terminal} {spelling : List Char}
    (spelled : terminal.spelling? = some spelling) (characters : List Char) :
    terminal.lexeme? characters =
      if spelling.isPrefixOf characters then some spelling else none := by
  cases terminal <;> cases spelled <;> rfl

theorem lexeme?_begins {terminal : Terminal} {characters text : List Char}
    (found : terminal.lexeme? characters = some text) : text <+: characters := by
  cases spelled : terminal.spelling? with
  | none =>
      cases terminal <;> cases spelled
      · exact docComment?_begins found
      · exact importPath?_begins found
      · exact name?_begins found
  | some spelling =>
      rw [lexeme?_of_spelling spelled] at found
      split at found
      · next begins =>
        cases found
        exact List.isPrefixOf_iff_prefix.mp begins
      · cases found

theorem exists_lexeme?_of_scan {sought : List Terminal} {characters : List Char} {found : Found}
    (scanned : scan sought characters = some found) :
    ∃ terminal ∈ sought, terminal.lexeme? characters = some found.text ∧
      found.terminal = Terminal.classify sought terminal found.text := by
  rcases List.exists_of_findSome?_eq_some scanned with ⟨terminal, _, tried⟩
  split at tried
  · next member =>
    rcases Option.map_eq_some_iff.mp tried with ⟨text, lexed, rfl⟩
    exact ⟨terminal, member, lexed, rfl⟩
  · cases tried

theorem scan_begins {sought : List Terminal} {characters : List Char} {found : Found}
    (scanned : scan sought characters = some found) : found.text <+: characters := by
  rcases exists_lexeme?_of_scan scanned with ⟨terminal, _, lexed, _⟩
  exact lexeme?_begins lexed

theorem append_ne_nil_of_scan {sought : List Terminal} {characters rest : List Char}
    {found : Found} (scanned : scan sought characters = some found) : found.text ++ rest ≠ [] :=
  List.append_ne_nil_of_left_ne_nil (List.length_pos_iff.mp (length_pos_of_scan scanned)) rest

/-! ## A token that ends inside a piece of the text -/

theorem beginsName_append {piece : List Char} (nonempty : piece ≠ []) (suffix : List Char) :
    beginsName (piece ++ suffix) = beginsName piece := by
  cases piece with
  | nil => exact absurd rfl nonempty
  | cons character rest => rfl

theorem takeWhile_of_within {member : Char → Bool} {piece suffix : List Char}
    (within : ((piece ++ suffix).takeWhile member).length ≤ piece.length) :
    (piece ++ suffix).takeWhile member = piece.takeWhile member := by
  rw [List.takeWhile_append] at within ⊢
  split
  · next whole =>
    rw [if_pos whole, List.length_append] at within
    have nothing : suffix.takeWhile member = [] := List.length_eq_zero_iff.mp (by omega)
    rw [nothing, List.append_nil]
    exact ((List.takeWhile_prefix _).eq_of_length whole).symm
  · rfl

theorem pathTail_of_within {piece suffix : List Char}
    (within : (pathTail (piece ++ suffix)).length ≤ piece.length) :
    pathTail (piece ++ suffix) = pathTail piece := by
  induction piece with
  | nil =>
      exact List.length_eq_zero_iff.mp (Nat.le_zero.mp within)
  | cons character rest induction =>
      rw [List.cons_append, pathTail] at within ⊢
      rw [pathTail]
      split at within
      · next member =>
        rw [if_pos member, if_pos member, induction (Nat.le_of_succ_le_succ within)]
      · next other =>
        rw [if_neg other, if_neg other]
        cases rest with
        | nil =>
            -- A dot at the end of the piece belongs to the path only with the name behind it.
            split at within
            · next dotted =>
              rw [Bool.and_eq_true] at dotted
              have longer := List.length_pos_iff.mpr (pathTail_ne_nil dotted.2)
              simp only [List.nil_append, List.length_cons, List.length_nil] at within longer
              omega
            · next undotted =>
              rw [if_neg undotted]
              simp [beginsName]
        | cons second rest =>
            rw [beginsName_append (List.cons_ne_nil _ _)]
            split at within
            · next dotted =>
              rw [beginsName_append (List.cons_ne_nil _ _)] at dotted
              rw [if_pos dotted, if_pos dotted, induction (Nat.le_of_succ_le_succ within)]
            · next undotted =>
              rw [beginsName_append (List.cons_ne_nil _ _)] at undotted
              rw [if_neg undotted, if_neg undotted]

theorem name?_of_within {piece suffix : List Char} (nonempty : piece ≠ [])
    (within : ∀ text, name? (piece ++ suffix) = some text → text.length ≤ piece.length) :
    name? (piece ++ suffix) = name? piece := by
  rw [name?, beginsName_append nonempty] at within ⊢
  rw [name?]
  split
  · next begins =>
    rw [if_pos begins] at within
    rw [takeWhile_of_within (within _ rfl)]
  · rfl

theorem importPath?_of_within {piece suffix : List Char}
    (within : ∀ text, importPath? (piece ++ suffix) = some text → text.length ≤ piece.length) :
    importPath? (piece ++ suffix) = importPath? piece := by
  have parts := List.takeWhile_append_dropWhile (p := (· = '.')) (l := piece)
  have lengths := congrArg List.length parts
  rw [List.length_append] at lengths
  simp only [importPath?] at within ⊢
  cases named : piece.dropWhile (· = '.') with
  | nil =>
      -- Nothing but dots: a name behind the piece would make the path longer than the piece.
      rw [named, List.append_nil] at parts
      rw [List.dropWhile_append, named] at within ⊢
      simp only [List.isEmpty_nil, if_true] at within ⊢
      split
      · next begins =>
        have longer := List.length_pos_iff.mpr (pathTail_ne_nil begins)
        have whole := within _ (if_pos begins)
        rw [List.takeWhile_append, parts, if_pos rfl] at whole
        simp only [List.length_append] at whole
        omega
      · rfl
  | cons character rest =>
      have dots : (piece ++ suffix).takeWhile (· = '.') = piece.takeWhile (· = '.') := by
        rw [List.takeWhile_append, if_neg]
        intro whole
        rw [whole, named, List.length_cons] at lengths
        omega
      rw [List.dropWhile_append, named] at within ⊢
      simp only [List.isEmpty_cons, Bool.false_eq_true, if_false] at within ⊢
      rw [dots, beginsName_append (List.cons_ne_nil _ _)] at within ⊢
      split
      · next begins =>
        have whole := within _ (if_pos begins)
        rw [List.length_append] at whole
        rw [named] at lengths
        rw [pathTail_of_within (by omega)]
      · rfl

theorem three_le_length_of_docComment? {characters text : List Char}
    (found : docComment? characters = some text) : 3 ≤ text.length := by
  unfold docComment? at found
  split at found
  · cases found
    simp
  · cases found

theorem docComment?_of_within {piece suffix : List Char}
    (within : ∀ text, docComment? (piece ++ suffix) = some text → text.length ≤ piece.length) :
    docComment? (piece ++ suffix) = docComment? piece := by
  by_cases short : piece.length < 3
  · -- Three slashes do not fit into the piece.
    have none_of : ∀ {characters : List Char},
        (∀ text, docComment? characters = some text → text.length ≤ piece.length) →
        docComment? characters = none := by
      intro characters bounded
      cases found : docComment? characters with
      | none => rfl
      | some text =>
          have long := three_le_length_of_docComment? found
          have fits := bounded text found
          omega
    rw [none_of within, none_of fun text found => (docComment?_begins found).length_le]
  · rcases piece with _ | ⟨first, _ | ⟨second, _ | ⟨third, rest⟩⟩⟩
    · simp at short
    · simp at short
    · simp at short
    · by_cases slashes : first = '/' ∧ second = '/' ∧ third = '/'
      · rcases slashes with ⟨rfl, rfl, rfl⟩
        have whole := within _ rfl
        simp only [List.length_cons, Nat.add_le_add_iff_right] at whole
        simp only [List.cons_append, docComment?, takeWhile_of_within whole]
      · have other : ∀ characters, docComment? (first :: second :: third :: characters) = none := by
          intro characters
          unfold docComment?
          split
          · next equal =>
            cases equal
            exact absurd ⟨rfl, rfl, rfl⟩ slashes
          · rfl
        rw [List.cons_append, List.cons_append, List.cons_append, other, other]

theorem lexeme?_of_within {terminal : Terminal} {piece suffix : List Char} (nonempty : piece ≠ [])
    (within : ∀ text, terminal.lexeme? (piece ++ suffix) = some text →
      text.length ≤ piece.length) :
    terminal.lexeme? (piece ++ suffix) = terminal.lexeme? piece := by
  cases spelled : terminal.spelling? with
  | none =>
      cases terminal <;> cases spelled
      · exact docComment?_of_within within
      · exact importPath?_of_within within
      · exact name?_of_within nonempty within
  | some spelling =>
      rw [lexeme?_of_spelling spelled] at within ⊢
      rw [lexeme?_of_spelling spelled]
      have same : spelling.isPrefixOf (piece ++ suffix) = spelling.isPrefixOf piece := by
        rw [Bool.eq_iff_iff, List.isPrefixOf_iff_prefix, List.isPrefixOf_iff_prefix]
        constructor
        · intro begins
          have fits := within spelling (if_pos (List.isPrefixOf_iff_prefix.mpr begins))
          exact List.prefix_of_prefix_length_le begins (List.prefix_append piece suffix) fits
        · exact fun begins => begins.trans (List.prefix_append piece suffix)
      rw [same]

/-- A token that ends inside the piece is found in the piece alone. -/
theorem scan_of_within {sought : List Terminal} {piece suffix : List Char} {found : Found}
    (nonempty : piece ≠ []) (scanned : scan sought (piece ++ suffix) = some found)
    (within : found.text.length ≤ piece.length) : scan sought piece = some found := by
  rw [scan, List.findSome?_eq_some_iff] at scanned ⊢
  rcases scanned with ⟨before, terminal, after, order, tried, missed⟩
  refine ⟨before, terminal, after, order, ?_, ?_⟩
  · split at tried
    · next member =>
      rw [if_pos member]
      rcases Option.map_eq_some_iff.mp tried with ⟨text, lexed, rfl⟩
      rw [← @lexeme?_of_within terminal piece suffix nonempty, lexed]
      · rfl
      · intro other lexedOther
        rw [lexed] at lexedOther
        cases lexedOther
        exact within
    · cases tried
  · intro other member
    have missedOther := missed other member
    split at missedOther
    · next isSought =>
      rw [Option.map_eq_none_iff] at missedOther
      rw [if_pos isSought, Option.map_eq_none_iff,
        ← @lexeme?_of_within other piece suffix nonempty, missedOther]
      intro text lexed
      rw [missedOther] at lexed
      cases lexed
    · next isNot => rw [if_neg isNot]

/-! ## A blank or a slash behind a piece of the text -/

theorem isBlank_iff {character : Char} :
    isBlank character = true ↔ character = ' ' ∨ character = '\t' ∨ character = '\x0c' ∨
      character = '\r' ∨ character = '\n' := by
  simp [isBlank, or_assoc]

def isStop (character : Char) : Bool := isBlank character || character = '/'

theorem isStop_iff {character : Char} :
    isStop character = true ↔ isBlank character = true ∨ character = '/' := by
  simp [isStop]

theorem not_isNameCharacter_of_isStop {character : Char} (stops : isStop character = true) :
    isNameCharacter character = false := by
  rw [isStop_iff, isBlank_iff] at stops
  rcases stops with (rfl | rfl | rfl | rfl | rfl) | rfl <;> decide

theorem mem_pathTail {characters : List Char} :
    ∀ character ∈ pathTail characters, isNameCharacter character = true ∨ character = '.' := by
  induction characters with
  | nil => exact fun _ member => absurd member List.not_mem_nil
  | cons head rest induction =>
      intro character member
      rw [pathTail] at member
      split at member
      · next named =>
        rcases List.mem_cons.mp member with rfl | member
        · exact .inl named
        · exact induction character member
      · split at member
        · next dotted =>
          rw [Bool.and_eq_true, decide_eq_true_eq] at dotted
          rcases List.mem_cons.mp member with rfl | member
          · exact .inr dotted.1
          · exact induction character member
        · cases member

theorem not_isStop_of_mem_spelling {terminal : Terminal} {spelling : List Char}
    (spelled : terminal.spelling? = some spelling) :
    ∀ character ∈ spelling, isStop character = false := by
  have none_stops : spelling.all (fun character => !isStop character) = true := by
    cases terminal <;> cases spelled <;> rfl
  intro character member
  rw [← Bool.not_eq_true']
  exact List.all_eq_true.mp none_stops character member

theorem not_mem_of_name? {characters text : List Char} {stop : Char}
    (stops : isStop stop = true) (found : name? characters = some text) : stop ∉ text := by
  have unnamed := not_isNameCharacter_of_isStop stops
  intro member
  rw [name?] at found
  split at found
  · cases found
    rw [List.mem_takeWhile_imp member] at unnamed
    cases unnamed
  · cases found

theorem not_mem_of_importPath? {characters text : List Char} {stop : Char}
    (stops : isStop stop = true) (found : importPath? characters = some text) :
    stop ∉ text := by
  have unnamed := not_isNameCharacter_of_isStop stops
  have notDot : stop ≠ '.' := by
    rintro rfl
    cases stops
  intro member
  simp only [importPath?] at found
  split at found
  · cases found
    rcases List.mem_append.mp member with dot | inPath
    · have isDot := List.mem_takeWhile_imp dot
      exact notDot (decide_eq_true_eq.mp isDot)
    · rcases mem_pathTail stop inPath with named | dot
      · rw [named] at unnamed
        cases unnamed
      · exact notDot dot
  · cases found

theorem not_mem_of_docComment? {characters text : List Char}
    (found : docComment? characters = some text) : '\n' ∉ text := by
  intro member
  unfold docComment? at found
  split at found
  · cases found
    simp only [List.mem_cons, Char.reduceEq, false_or] at member
    simpa using List.mem_takeWhile_imp member
  · cases found

theorem not_mem_of_lexeme? {terminal : Terminal} {characters text : List Char} {stop : Char}
    (stops : isStop stop = true) (ends : stop = '\n' ∨ docComment? characters = none)
    (found : terminal.lexeme? characters = some text) : stop ∉ text := by
  cases spelled : terminal.spelling? with
  | none =>
      cases terminal <;> cases spelled
      · rcases ends with rfl | nothing
        · exact not_mem_of_docComment? found
        · cases nothing.symm.trans found
      · exact not_mem_of_importPath? stops found
      · exact not_mem_of_name? stops found
  | some spelling =>
      rw [lexeme?_of_spelling spelled] at found
      split at found
      · cases found
        intro member
        rw [not_isStop_of_mem_spelling spelled stop member] at stops
        cases stops
      · cases found

theorem length_le_of_not_mem {text piece rest : List Char} {stop : Char}
    (begins : text <+: piece ++ stop :: rest) (absent : stop ∉ text) :
    text.length ≤ piece.length := by
  apply Nat.le_of_not_lt
  intro longer
  have whole : piece ++ [stop] <+: piece ++ stop :: rest :=
    ⟨rest, by rw [List.append_assoc, List.singleton_append]⟩
  have inside : piece ++ [stop] <+: text := by
    apply List.prefix_of_prefix_length_le whole begins
    rw [List.length_append, List.length_singleton]
    omega
  exact absent (inside.subset (List.mem_append_right _ (List.mem_singleton.mpr rfl)))

theorem length_le_of_stop {terminal : Terminal} {piece rest text : List Char} {stop : Char}
    (stops : isStop stop = true)
    (ends : '\n' ∈ piece ∨ stop = '\n' ∨ docComment? (piece ++ stop :: rest) = none)
    (found : terminal.lexeme? (piece ++ stop :: rest) = some text) :
    text.length ≤ piece.length := by
  rcases ends with broken | ends
  · rcases List.append_of_mem broken with ⟨line, more, rfl⟩
    have within : text <+: line ++ '\n' :: (more ++ stop :: rest) := by
      rw [← List.cons_append, ← List.append_assoc]
      exact lexeme?_begins found
    have short := length_le_of_not_mem within (not_mem_of_lexeme? rfl (.inl rfl) found)
    rw [List.length_append]
    exact short.trans (Nat.le_add_right _ _)
  · exact length_le_of_not_mem (lexeme?_begins found) (not_mem_of_lexeme? stops ends found)

/-- What is found in a piece is also found before an ending that begins with a blank or a slash. -/
theorem scan_append_stop {sought : List Terminal} {piece ending : List Char}
    (nonempty : piece ≠ []) (stops : ∀ stop ∈ ending.head?, isStop stop = true)
    (ends : '\n' ∈ piece ∨ (∀ stop ∈ ending.head?, stop = '\n') ∨
      docComment? (piece ++ ending) = none) :
    scan sought (piece ++ ending) = scan sought piece := by
  cases ending with
  | nil => rw [List.append_nil]
  | cons stop rest =>
      have ends : '\n' ∈ piece ∨ stop = '\n' ∨ docComment? (piece ++ stop :: rest) = none :=
        ends.imp_right (Or.imp_left fun newline => newline stop rfl)
      have same : ∀ terminal : Terminal,
          terminal.lexeme? (piece ++ stop :: rest) = terminal.lexeme? piece := by
        intro terminal
        apply lexeme?_of_within nonempty
        intro text found
        exact length_le_of_stop (stops stop rfl) ends found
      simp only [scan, same]

theorem scan_append_blank {sought : List Terminal} {piece rest : List Char} {blank : Char}
    (nonempty : piece ≠ []) (isBlank : isBlank blank = true)
    (ends : blank = '\n' ∨ docComment? (piece ++ blank :: rest) = none) :
    scan sought (piece ++ blank :: rest) = scan sought piece := by
  apply scan_append_stop nonempty
  · rintro stop ⟨⟩
    exact isStop_iff.mpr (.inl isBlank)
  · refine .inr (ends.imp_left ?_)
    rintro newline stop ⟨⟩
    exact newline

/-! ## Gaps -/

theorem beginsComment_iff {characters : List Char} :
    beginsComment characters = true ↔
      ∃ rest, characters = '/' :: '/' :: rest ∧ rest.head? ≠ some '/' := by
  constructor
  · intro begins
    unfold beginsComment at begins
    split at begins
    · cases begins
    · next rest noThird =>
      refine ⟨rest, rfl, fun third => ?_⟩
      cases rest with
      | nil => cases third
      | cons head tail =>
          cases third
          exact noThird tail rfl
    · cases begins
  · rintro ⟨rest, rfl, noThird⟩
    unfold beginsComment
    split
    · next equal =>
      cases equal
      exact absurd rfl noThird
    · rfl
    · next noSecond => exact absurd rfl (noSecond rest)

theorem gapFrom_true_cons (character : Char) (rest : List Char) :
    gapFrom true (character :: rest) = character :: gapFrom (character ≠ '\n') rest := rfl

theorem gapFrom_false_cons_of_isBlank {character : Char} (blank : isBlank character = true)
    (rest : List Char) : gapFrom false (character :: rest) = character :: gapFrom false rest := by
  rw [gapFrom, if_neg Bool.false_ne_true, if_pos blank]

/-- A comment that a gap opens has begun within it: the gap holds both slashes and the character
behind them, unless the text ends there. -/
theorem beginsComment_append {slash : Char} {blanks tail other : List Char} (nonempty : tail ≠ [])
    (begins : beginsComment (slash :: (blanks ++ tail)) = true)
    (gapped : gapFrom true (blanks ++ tail) = blanks) :
    beginsComment (slash :: (blanks ++ other)) = true := by
  have open_of_nil : gapFrom true tail ≠ [] := by
    cases tail with
    | nil => exact absurd rfl nonempty
    | cons character rest => exact List.cons_ne_nil _ _
  rcases beginsComment_iff.mp begins with ⟨rest, equal, noThird⟩
  cases blanks with
  | nil => exact absurd gapped open_of_nil
  | cons second blanks =>
      rw [List.cons_append, List.cons.injEq, List.cons.injEq] at equal
      rcases equal with ⟨rfl, rfl, rfl⟩
      rw [List.cons_append, gapFrom_true_cons] at gapped
      cases blanks with
      | nil => exact absurd (List.cons.inj gapped).2 open_of_nil
      | cons third blanks => exact beginsComment_iff.mpr ⟨_, rfl, noThird⟩

theorem gapFrom_append {inComment : Bool} {blanks tail : List Char} (nonempty : tail ≠ [])
    (gapped : gapFrom inComment (blanks ++ tail) = blanks) (other : List Char) :
    gapFrom inComment (blanks ++ other) = blanks ++ gapFrom false other := by
  induction blanks generalizing inComment with
  | nil =>
      cases inComment with
      | false => rfl
      | true =>
          cases tail with
          | nil => exact absurd rfl nonempty
          | cons character rest => cases gapped
  | cons character blanks induction =>
      rw [List.cons_append, gapFrom] at gapped
      rw [List.cons_append, gapFrom]
      split at gapped
      · next commented =>
        rw [if_pos commented, induction (List.cons.inj gapped).2]
        rfl
      · next uncommented =>
        rw [if_neg uncommented]
        split at gapped
        · next blank =>
          rw [if_pos blank, induction (List.cons.inj gapped).2]
          rfl
        · next notBlank =>
          rw [if_neg notBlank]
          split at gapped
          · next begins =>
            have gapped := (List.cons.inj gapped).2
            rw [if_pos (beginsComment_append nonempty begins gapped), induction gapped]
            rfl
          · cases gapped

theorem gap_of_head {character : Char} (notBlank : isBlank character = false)
    (notSlash : character ≠ '/') (rest : List Char) : gap (character :: rest) = [] := by
  rw [gap, gapFrom, if_neg Bool.false_ne_true, notBlank, if_neg Bool.false_ne_true, if_neg]
  intro begins
  rcases beginsComment_iff.mp begins with ⟨_, equal, _⟩
  exact notSlash (List.cons.inj equal).1

theorem head_of_isNameStart {character : Char} (starts : isNameStart character = true) :
    isBlank character = false ∧ character ≠ '/' := by
  constructor
  · cases blank : isBlank character with
    | false => rfl
    | true =>
        have unnamed := not_isNameCharacter_of_isStop (isStop_iff.mpr (.inl blank))
        rw [isNameCharacter, starts] at unnamed
        cases unnamed
  · rintro rfl
    cases starts

theorem exists_head_of_lexeme? {terminal : Terminal} {piece text : List Char}
    (other : terminal ≠ .docComment) (found : terminal.lexeme? piece = some text) :
    ∃ character rest, piece = character :: rest ∧ isBlank character = false ∧ character ≠ '/' := by
  cases spelled : terminal.spelling? with
  | none =>
      cases terminal <;> cases spelled
      · exact absurd rfl other
      · have found : importPath? piece = some text := found
        simp only [importPath?] at found
        split at found
        · next begins =>
          cases piece with
          | nil => cases begins
          | cons character rest =>
              refine ⟨character, rest, rfl, ?_⟩
              by_cases dot : character = '.'
              · rw [dot]
                decide
              · rw [List.dropWhile_cons_of_neg (by simpa using dot)] at begins
                exact head_of_isNameStart begins
        · cases found
      · have found : name? piece = some text := found
        rw [name?] at found
        split at found
        · next begins =>
          cases piece with
          | nil => cases begins
          | cons character rest => exact ⟨character, rest, rfl, head_of_isNameStart begins⟩
        · cases found
  | some spelling =>
      rw [lexeme?_of_spelling spelled] at found
      split at found
      · next begins =>
        rcases List.isPrefixOf_iff_prefix.mp begins with ⟨rest, rfl⟩
        cases terminal <;> cases spelled <;> exact ⟨_, _, rfl, by decide⟩
      · cases found

theorem docComment?_of_head {character : Char} (notSlash : character ≠ '/') (rest : List Char) :
    docComment? (character :: rest) = none := by
  unfold docComment?
  split
  · next equal =>
    cases equal
    exact absurd rfl notSlash
  · rfl

theorem docComment?_of_lexeme? {terminal : Terminal} {characters text : List Char}
    (lexed : terminal.lexeme? characters = some text) (other : terminal ≠ .docComment) :
    docComment? characters = none := by
  rcases exists_head_of_lexeme? other lexed with ⟨character, rest, rfl, _, notSlash⟩
  exact docComment?_of_head notSlash rest

theorem docComment?_of_scan_other {sought : List Terminal} {piece : List Char} {found : Found}
    (scanned : scan sought piece = some found) (other : found.terminal ≠ .docComment)
    (behind : List Char) : docComment? (piece ++ behind) = none := by
  rcases exists_lexeme?_of_scan scanned with ⟨terminal, _, lexed, classified⟩
  have noComment : terminal ≠ .docComment := by
    rintro rfl
    exact other classified
  rcases exists_head_of_lexeme? noComment lexed with ⟨character, characters, rfl, _, notSlash⟩
  exact docComment?_of_head notSlash _

theorem head?_behind_docComment? {text rest : List Char}
    (found : docComment? (text ++ rest) = some text) : ∀ next ∈ rest.head?, next = '\n' := by
  have long := three_le_length_of_docComment? found
  rcases text with _ | ⟨first, _ | ⟨second, _ | ⟨third, line⟩⟩⟩
  · simp at long
  · simp at long
  · simp at long
  · rw [List.cons_append, List.cons_append, List.cons_append] at found
    unfold docComment? at found
    split at found
    · next equal =>
      cases equal
      have taken := (List.cons.inj (List.cons.inj (List.cons.inj (Option.some.inj found)).2).2).2
      have parts := @List.takeWhile_append_dropWhile _ (fun other => decide (other ≠ '\n'))
        (line ++ rest)
      rw [taken, List.append_cancel_left_eq] at parts
      have ended := List.head?_dropWhile_not (fun other => decide (other ≠ '\n')) (line ++ rest)
      rw [parts] at ended
      rintro next isNext
      rw [isNext] at ended
      simpa using ended
    · cases found

theorem gap_of_docComment? {piece text : List Char} (found : docComment? piece = some text)
    (other : List Char) : gap (piece ++ other) = [] := by
  unfold docComment? at found
  split at found
  · rfl
  · cases found

theorem gap_of_scan {sought : List Terminal} {piece : List Char} {found : Found}
    (scanned : scan sought piece = some found) (other : List Char) : gap (piece ++ other) = [] := by
  rcases exists_lexeme?_of_scan scanned with ⟨terminal, _, lexed, _⟩
  by_cases documentation : terminal = .docComment
  · rw [documentation] at lexed
    exact gap_of_docComment? lexed other
  · rcases exists_head_of_lexeme? documentation lexed with
      ⟨character, rest, rfl, notBlank, notSlash⟩
    exact gap_of_head notBlank notSlash _

end Lexeme

end ServiceModules
