import ServiceModules.Draft.Basic
import ServiceModules.Proofs.ImportPath
import ServiceModules.Proofs.Program.Print
import ServiceModules.Proofs.Token.Extent

/-!
Clear tokens. A token is clear among the terminals that are looked for when its own text is read as
this token. A name is clear unless it is a keyword that is looked for, and a keyword is clear
wherever it is looked for, even where names are.
-/

namespace ServiceModules

def Token.IsClear (sought : List Terminal) (token : Token) : Prop :=
  Lexeme.scan sought token.text = some ⟨token.terminal, token.text⟩

theorem Terminal.eq_of_spelling? {terminal other : Terminal} {spelling : List Char}
    (spelled : terminal.spelling? = some spelling) (same : other.spelling? = some spelling) :
    other = terminal := by
  cases terminal <;> cases spelled <;> cases other <;> cases same <;> rfl

namespace Lexeme

theorem findSome?_eq_some_of_forall {α β : Type} {list : List α} {choose : α → Option β}
    {result : β} (only : ∀ element ∈ list, ∀ chosen, choose element = some chosen →
      chosen = result) {element : α} (member : element ∈ list)
    (chosen : choose element = some result) : list.findSome? choose = some result := by
  cases found : list.findSome? choose with
  | none =>
      rw [List.findSome?_eq_none_iff.mp found element member] at chosen
      cases chosen
  | some other =>
      rcases List.exists_of_findSome?_eq_some found with ⟨first, firstMember, firstChosen⟩
      rw [only first firstMember other firstChosen]

theorem scan_eq_some {sought : List Terminal} {characters : List Char} {found : Found}
    (agree : ∀ terminal ∈ sought, ∀ text, terminal.lexeme? characters = some text →
      ⟨Terminal.classify sought terminal text, text⟩ = found)
    {terminal : Terminal} (member : terminal ∈ sought)
    (lexed : terminal.lexeme? characters = some found.text) :
    scan sought characters = some found := by
  apply findSome?_eq_some_of_forall _ (Terminal.mem_trialOrder terminal)
  · rw [if_pos member, lexed]
    exact congrArg some (agree terminal member found.text lexed)
  · intro other _ chosen tried
    split at tried
    · next otherMember =>
      rcases Option.map_eq_some_iff.mp tried with ⟨text, otherLexed, rfl⟩
      exact agree other otherMember text otherLexed
    · cases tried

/-! ## Names -/

theorem takeWhile_of_all {name : List Char} (all : name.all isNameCharacter = true) :
    name.takeWhile isNameCharacter = name :=
  List.takeWhile_eq_self_iff.mpr (List.all_eq_true.mp all)

theorem isIdentifier_iff {name : String} :
    isIdentifier name = true ↔
      beginsName name.toList = true ∧ name.toList.all isNameCharacter = true := by
  rw [isIdentifier, Bool.and_eq_true]

theorem name?_of_isIdentifier {name : String} (identifier : isIdentifier name = true) :
    name? name.toList = some name.toList := by
  rcases isIdentifier_iff.mp identifier with ⟨begins, all⟩
  rw [name?, if_pos begins, takeWhile_of_all all]

end Lexeme

namespace Terminal

theorem spelled?_eq_none_iff {sought : List Terminal} {text : List Char} :
    spelled? sought text = none ↔ ∀ terminal ∈ sought, terminal.spelling? ≠ some text := by
  rw [spelled?, List.find?_eq_none]
  simp only [decide_eq_true_eq]

theorem spelled?_of_mem {sought : List Terminal} {terminal : Terminal} {spelling : List Char}
    (member : terminal ∈ sought) (spelled : terminal.spelling? = some spelling) :
    spelled? sought spelling = some terminal := by
  cases found : spelled? sought spelling with
  | none => exact absurd spelled (spelled?_eq_none_iff.mp found terminal member)
  | some other =>
      have same : other.spelling? = some spelling := by
        simpa only [decide_eq_true_eq] using List.find?_some found
      rw [eq_of_spelling? spelled same]

theorem classify_of_ne {sought : List Terminal} {terminal : Terminal} (other : terminal ≠ .name)
    (text : List Char) : classify sought terminal text = terminal := by
  rw [classify, if_neg other]

def isWord : Terminal → Bool
  | .asWord | .embedsWord | .fromWord | .implementsWord | .importWord | .interfaceWord
  | .serviceWord | .typeWord => true
  | _ => false

theorem spelling?_ne_of_isWord_eq_false {terminal : Terminal} (mark : terminal.isWord = false)
    {name : List Char} (begins : Lexeme.beginsName name = true) :
    terminal.spelling? ≠ some name := by
  intro spelled
  cases terminal <;> cases mark <;> cases spelled <;> cases begins

theorem classify_name_eq_or {sought : List Terminal} {text : List Char} :
    classify sought .name text = .name ∧ (∀ terminal ∈ sought, terminal.spelling? ≠ some text) ∨
      (classify sought .name text).spelling? = some text := by
  rw [classify, if_pos rfl]
  cases found : spelled? sought text with
  | none => exact .inl ⟨rfl, spelled?_eq_none_iff.mp found⟩
  | some terminal =>
      right
      rw [Option.getD_some]
      simpa only [decide_eq_true_eq] using List.find?_some found

theorem classify_name_of_free {sought : List Terminal} {text : List Char}
    (free : ∀ terminal ∈ sought, terminal.spelling? ≠ some text) :
    classify sought .name text = .name := by
  rw [classify, if_pos rfl, spelled?_eq_none_iff.mpr free]
  rfl

theorem classify_name_of_mem {sought : List Terminal} {terminal : Terminal}
    {spelling : List Char} (member : terminal ∈ sought)
    (spelled : terminal.spelling? = some spelling) :
    classify sought .name spelling = terminal := by
  rw [classify, if_pos rfl, spelled?_of_mem member spelled]
  rfl

end Terminal

/-! ## Names and documentation that are read -/

namespace Lexeme

variable {sought : List Terminal} {characters text : List Char} {found : Found}

theorem scan_of_name? (member : .name ∈ sought) (named : name? characters = some text) :
    scan sought characters = some ⟨Terminal.classify sought .name text, text⟩ := by
  have lexed : Terminal.lexeme? .name characters = some text := named
  rw [scan, Terminal.trialOrder, List.findSome?_cons, if_pos member, lexed]
  rfl

theorem scan_of_docComment? (member : .docComment ∈ sought)
    (commented : docComment? characters = some text) :
    scan sought characters = some ⟨.docComment, text⟩ := by
  have lexed : Terminal.lexeme? .docComment characters = some text := commented
  apply scan_eq_some _ member lexed
  intro other _ otherText otherLexed
  by_cases documentation : other = .docComment
  · rw [documentation] at otherLexed ⊢
    cases commented.symm.trans otherLexed
    rfl
  · cases (docComment?_of_lexeme? otherLexed documentation).symm.trans commented

theorem name?_of_scan (scanned : scan sought characters = some found)
    (named : found.terminal = .name) :
    name? characters = some found.text ∧
      ∀ terminal ∈ sought, terminal.spelling? ≠ some found.text := by
  rcases exists_lexeme?_of_scan scanned with ⟨terminal, _, lexed, classified⟩
  rw [named] at classified
  by_cases isName : terminal = .name
  · rw [isName] at lexed classified
    rcases @Terminal.classify_name_eq_or sought found.text with ⟨_, free⟩ | spelled
    · exact ⟨lexed, free⟩
    · rw [← classified] at spelled
      cases spelled
  · rw [Terminal.classify_of_ne isName] at classified
    exact absurd classified.symm isName

theorem lexeme?_of_scan (scanned : scan sought characters = some found)
    (unspelled : found.terminal.spelling? = none) (other : found.terminal ≠ .name) :
    found.terminal.lexeme? characters = some found.text := by
  rcases exists_lexeme?_of_scan scanned with ⟨terminal, _, lexed, classified⟩
  by_cases isName : terminal = .name
  · rw [isName] at classified
    rcases @Terminal.classify_name_eq_or sought found.text with ⟨named, _⟩ | spelled
    · exact absurd (classified.trans named) other
    · rw [← classified, unspelled] at spelled
      cases spelled
  · rw [Terminal.classify_of_ne isName] at classified
    rw [classified]
    exact lexed

theorem docComment?_of_scan (scanned : scan sought characters = some found)
    (commented : found.terminal = .docComment) : docComment? characters = some found.text := by
  have lexed := lexeme?_of_scan scanned (by rw [commented]; rfl) (by rw [commented]; decide)
  rwa [commented] at lexed

theorem docComment?_of_single {line : List Char} (single : '\n' ∉ line) :
    docComment? ('/' :: '/' :: '/' :: line) = some ('/' :: '/' :: '/' :: line) := by
  have whole : line.takeWhile (· ≠ '\n') = line := by
    apply List.takeWhile_eq_self_iff.mpr
    intro character isIn
    rw [decide_eq_true_eq]
    exact fun same => single (same ▸ isIn)
  rw [docComment?, whole]

end Lexeme

namespace Token

open Lexeme Terminal

variable {sought : List Terminal}

theorem isClear_ofName {name : String} (member : .name ∈ sought)
    (identifier : isIdentifier name = true)
    (free : ∀ terminal ∈ sought, terminal.spelling? ≠ some name.toList) :
    (ofName name).IsClear sought := by
  have scanned := scan_of_name? member (name?_of_isIdentifier identifier)
  rw [classify_name_of_free free] at scanned
  exact scanned

theorem isClear_ofName_of_marks {name : String} (member : .name ∈ sought)
    (identifier : isIdentifier name = true)
    (marks : sought.all (fun terminal => !terminal.isWord) = true) :
    (ofName name).IsClear sought := by
  apply isClear_ofName member identifier
  intro terminal isSought
  have mark := List.all_eq_true.mp marks terminal isSought
  rw [Bool.not_eq_true'] at mark
  exact spelling?_ne_of_isWord_eq_false mark (isIdentifier_iff.mp identifier).1

theorem name?_of_spelling {terminal : Terminal} {spelling text : List Char}
    (spelled : terminal.spelling? = some spelling) (found : name? spelling = some text) :
    text = spelling := by
  cases terminal <;> cases spelled <;> cases found <;> rfl

theorem docComment?_of_spelling {terminal : Terminal} {spelling : List Char}
    (spelled : terminal.spelling? = some spelling) : docComment? spelling = none := by
  cases terminal <;> cases spelled <;> rfl

theorem eq_of_isPrefixOf {terminal other : Terminal} {spelling otherSpelling : List Char}
    (spelled : terminal.spelling? = some spelling)
    (otherSpelled : other.spelling? = some otherSpelling)
    (begins : otherSpelling.isPrefixOf spelling = true) : other = terminal := by
  cases terminal <;> cases spelled <;> cases other <;> cases otherSpelled <;> cases begins <;> rfl

theorem isClear_ofWord {terminal : Terminal} {spelling : List Char}
    (spelled : terminal.spelling? = some spelling) (member : terminal ∈ sought)
    (noPath : .importPath ∉ sought) : (ofWord terminal).IsClear sought := by
  have text : (ofWord terminal).text = spelling := by rw [ofWord, spelled]; rfl
  have whole : terminal.lexeme? spelling = some spelling := by
    rw [lexeme?_of_spelling spelled, if_pos (List.isPrefixOf_iff_prefix.mpr List.prefix_rfl)]
  rw [IsClear, text]
  apply scan_eq_some _ member whole
  intro other otherMember found lexed
  cases otherSpelled : other.spelling? with
  | none =>
      cases other <;> cases otherSpelled
      · have nothing := docComment?_of_spelling spelled
        cases nothing.symm.trans lexed
      · exact absurd otherMember noPath
      · have same : found = spelling := name?_of_spelling spelled lexed
        rw [same, classify_name_of_mem member spelled]
        rfl
  | some otherSpelling =>
      rw [lexeme?_of_spelling otherSpelled] at lexed
      split at lexed
      · next begins =>
        cases lexed
        cases eq_of_isPrefixOf spelled otherSpelled begins
        rw [spelled] at otherSpelled
        cases otherSpelled
        rw [classify_of_ne]
        · rfl
        · rintro rfl
          cases spelled
      · cases lexed

theorem isClear_ofLine {line : List Char} (member : .docComment ∈ sought)
    (single : '\n' ∉ line) : (ofLine line).IsClear sought := by
  have blankLine : '\n' ∉ ' ' :: line := by simpa using single
  exact scan_of_docComment? member (docComment?_of_single blankLine)

/-! ## Import paths -/

theorem pathTail_append {name : List Char} (all : name.all isNameCharacter = true)
    (rest : List Char) : pathTail (name ++ rest) = name ++ pathTail rest := by
  induction name with
  | nil => rfl
  | cons character name induction =>
      rw [List.all_cons, Bool.and_eq_true] at all
      rw [List.cons_append, pathTail, if_pos all.1, induction all.2]
      rfl

theorem beginsName_join {part : String} {parts : List String}
    (identifier : isIdentifier part = true) :
    beginsName (Text.join '.' ((part :: parts).map String.toList)) = true := by
  have begins := (isIdentifier_iff.mp identifier).1
  cases parts with
  | nil => exact begins
  | cons second parts =>
      rw [List.map_cons, List.map_cons, Text.join]
      · rw [beginsName_append _ _]
        · exact begins
        · intro nothing
          rw [nothing] at begins
          cases begins
      · exact fun equal => absurd equal (List.cons_ne_nil _ _)

theorem pathTail_join {parts : List String}
    (identifiers : ∀ part ∈ parts, isIdentifier part = true) :
    pathTail (Text.join '.' (parts.map String.toList)) =
      Text.join '.' (parts.map String.toList) := by
  induction parts with
  | nil => rfl
  | cons part parts induction =>
      have all := (isIdentifier_iff.mp (identifiers part (List.mem_cons_self ..))).2
      have rest := induction fun other member => identifiers other (List.mem_cons_of_mem _ member)
      cases parts with
      | nil =>
          have whole := pathTail_append all []
          rw [List.append_nil, pathTail, List.append_nil] at whole
          exact whole
      | cons second parts =>
          have begins : beginsName (Text.join '.' ((second :: parts).map String.toList)) = true :=
            beginsName_join (identifiers second (List.mem_cons_of_mem _ (List.mem_cons_self ..)))
          rw [List.map_cons, List.map_cons, Text.join, pathTail_append all, pathTail,
            if_neg (by decide), if_pos]
          · rw [List.map_cons] at rest
            rw [rest]
          · rw [List.map_cons] at begins
            rw [begins]
            rfl
          · exact fun equal => absurd equal (List.cons_ne_nil _ _)

end Token

namespace ImportPath

open Lexeme

variable {path : ImportPath}

theorem isWellFormed_iff : path.isWellFormed = true ↔
    path.parts ≠ [] ∧ ∀ part ∈ path.parts, isIdentifier part = true := by
  rw [isWellFormed, Bool.and_eq_true, List.all_eq_true, Bool.not_eq_true',
    List.isEmpty_eq_false_iff]

theorem beginsName_named (wellFormed : path.isWellFormed = true) :
    beginsName path.named = true := by
  rcases isWellFormed_iff.mp wellFormed with ⟨nonempty, identifiers⟩
  rw [named]
  cases parts : path.parts with
  | nil => exact absurd parts nonempty
  | cons part rest =>
      rw [parts] at identifiers
      exact Token.beginsName_join (identifiers part (List.mem_cons_self ..))

theorem isLegible_of_isWellFormed (wellFormed : path.isWellFormed = true) : path.IsLegible := by
  rcases isWellFormed_iff.mp wellFormed with ⟨_, identifiers⟩
  constructor
  · intro part isPart dot
    have all := (isIdentifier_iff.mp (identifiers part isPart)).2
    cases List.all_eq_true.mp all '.' dot
  · rintro part first rfl
    have begins := (isIdentifier_iff.mp (identifiers "" (List.mem_of_head? first))).1
    cases begins

end ImportPath

theorem Token.isClear_ofPath {path : ImportPath} (wellFormed : path.isWellFormed = true) :
    (ofPath path).IsClear [.importPath] := by
  rcases (ImportPath.isLegible_of_isWellFormed wellFormed).dots_text with ⟨dots, behind⟩
  have whole : Lexeme.importPath? path.text.toList = some path.text.toList := by
    have identifiers := (ImportPath.isWellFormed_iff.mp wellFormed).2
    simp only [Lexeme.importPath?, dots, behind, if_pos (ImportPath.beginsName_named wellFormed)]
    rw [ImportPath.toList_text, ImportPath.named, pathTail_join identifiers]
  have member : Terminal.importPath ∈ [Terminal.importPath] := List.mem_singleton.mpr rfl
  have lexed : Terminal.lexeme? .importPath (ofPath path).text = some (ofPath path).text := whole
  apply Lexeme.scan_eq_some _ member lexed
  intro terminal isSought text lexed
  cases List.mem_singleton.mp isSought
  cases whole.symm.trans lexed
  rfl

/-! ## Names behind documentation -/

namespace DeclarationKind

theorem spelling?_terminal (kind : DeclarationKind) :
    kind.terminal.spelling? = some kind.word.toList := by
  cases kind <;> rfl

theorem terminal_mem_followers (kind : DeclarationKind) :
    kind.terminal ∈ Documentation.followers := by
  cases kind <;> decide

theorem mem_words_iff {name : String} :
    name ∈ words ↔ ∃ kind : DeclarationKind, kind.word = name := by
  constructor
  · intro member
    simp only [words, List.mem_cons, List.not_mem_nil, or_false] at member
    rcases member with rfl | rfl | rfl
    · exact ⟨.type, rfl⟩
    · exact ⟨.interface, rfl⟩
    · exact ⟨.service, rfl⟩
  · rintro ⟨kind, rfl⟩
    cases kind <;> simp [words]

theorem not_mem_words_iff {name : String} :
    name ∉ words ↔
      ∀ terminal ∈ Documentation.followers, terminal.spelling? ≠ some name.toList := by
  rw [mem_words_iff]
  constructor
  · intro different terminal member spelled
    have no_word : ∀ kind : DeclarationKind, kind.terminal.spelling? ≠ some name.toList := by
      intro kind same
      rw [kind.spelling?_terminal, Option.some_inj, String.toList_inj] at same
      exact different ⟨kind, same⟩
    cases terminal with
    | typeWord => exact no_word .type spelled
    | interfaceWord => exact no_word .interface spelled
    | serviceWord => exact no_word .service spelled
    | docComment | name => cases spelled
    | _ => exact absurd member (by decide)
  · rintro free ⟨kind, rfl⟩
    exact free kind.terminal kind.terminal_mem_followers kind.spelling?_terminal

end DeclarationKind

theorem Token.isClear_ofName_followers {name : String}
    (identifier : Lexeme.isIdentifier name = true) (other : name ∉ DeclarationKind.words) :
    (ofName name).IsClear Documentation.followers :=
  isClear_ofName (by decide) identifier (DeclarationKind.not_mem_words_iff.mp other)

end ServiceModules
