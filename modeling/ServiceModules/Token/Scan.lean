import ServiceModules.Token.Lexeme

/-!
Scanning one token. Which terminals are looked for depends on the place in the program; among
them a name is tried first, then an import path, documentation, and the fixed texts. A name whose
whole text is a keyword that is looked for is that keyword.
-/

namespace ServiceModules

namespace Terminal

/-- The order in which terminals are tried. No fixed text begins another one, so that only the
order of the first three matters. -/
def trialOrder : List Terminal :=
  [.name, .importPath, .docComment, .implementsWord, .interfaceWord, .serviceWord, .embedsWord,
    .importWord, .fromWord, .typeWord, .asWord, .arrow, .colon, .comma, .leftBrace,
    .leftParenthesis, .rightBrace, .rightParenthesis]

theorem mem_trialOrder (terminal : Terminal) : terminal ∈ trialOrder := by
  cases terminal <;> decide

def spelled? (sought : List Terminal) (text : List Char) : Option Terminal :=
  sought.find? fun terminal => terminal.spelling? = some text

/-- The terminal that a lexeme found for `terminal` stands for. -/
def classify (sought : List Terminal) (terminal : Terminal) (text : List Char) : Terminal :=
  if terminal = .name then (spelled? sought text).getD .name else terminal

end Terminal

structure Lexeme.Found where
  terminal : Terminal
  text : List Char
deriving DecidableEq, Repr

namespace Lexeme

def scan (sought : List Terminal) (characters : List Char) : Option Found :=
  Terminal.trialOrder.findSome? fun terminal =>
    if terminal ∈ sought then
      (terminal.lexeme? characters).map fun text =>
        ⟨Terminal.classify sought terminal text, text⟩
    else none

/-! A lexeme is never empty, which is what makes reading a text end. -/

theorem exists_head_of_beginsName {characters : List Char} (start : beginsName characters = true) :
    ∃ character rest, characters = character :: rest ∧ isNameCharacter character = true := by
  cases characters with
  | nil => simp [beginsName] at start
  | cons character rest =>
    simp only [beginsName] at start
    exact ⟨character, rest, rfl, by simp [isNameCharacter, start]⟩

theorem takeWhile_ne_nil {characters : List Char} (start : beginsName characters = true) :
    characters.takeWhile isNameCharacter ≠ [] := by
  obtain ⟨character, rest, rfl, member⟩ := exists_head_of_beginsName start
  simp [member]

theorem length_pos_of_name? {characters text : List Char}
    (found : name? characters = some text) : 0 < text.length := by
  simp only [name?, Option.ite_none_right_eq_some, Option.some.injEq] at found
  rw [← found.2]
  exact List.length_pos_iff.2 (takeWhile_ne_nil found.1)

theorem pathTail_ne_nil {characters : List Char} (start : beginsName characters = true) :
    pathTail characters ≠ [] := by
  obtain ⟨character, rest, rfl, member⟩ := exists_head_of_beginsName start
  simp [pathTail, member]

theorem length_pos_of_importPath? {characters text : List Char}
    (found : importPath? characters = some text) : 0 < text.length := by
  simp only [importPath?] at found
  split at found
  · next start =>
    have nonempty := List.length_pos_iff.2 (pathTail_ne_nil start)
    simp only [Option.some.injEq] at found
    rw [← found, List.length_append]
    omega
  · simp at found

theorem length_pos_of_docComment? {characters text : List Char}
    (found : docComment? characters = some text) : 0 < text.length := by
  unfold docComment? at found
  split at found
  · simp only [Option.some.injEq] at found
    simp [← found]
  · simp at found

theorem length_pos_of_lexeme? {terminal : Terminal} {characters text : List Char}
    (found : terminal.lexeme? characters = some text) : 0 < text.length := by
  cases terminal <;>
    simp only [Terminal.lexeme?, Terminal.spelling?, Option.ite_none_right_eq_some,
      Option.some.injEq] at found <;>
    first
    | exact length_pos_of_name? found
    | exact length_pos_of_importPath? found
    | exact length_pos_of_docComment? found
    | simp [← found.2]

theorem length_pos_of_scan {sought : List Terminal} {characters : List Char} {found : Found}
    (scanned : scan sought characters = some found) : 0 < found.text.length := by
  simp only [scan] at scanned
  obtain ⟨terminal, _, holds⟩ := List.exists_of_findSome?_eq_some scanned
  split at holds
  · obtain ⟨text, lexed, equal⟩ := Option.map_eq_some_iff.1 holds
    rw [← equal]
    exact length_pos_of_lexeme? lexed
  · simp at holds

end Lexeme

end ServiceModules
