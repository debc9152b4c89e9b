import ServiceModules.Proofs.Draft.Paths
import ServiceModules.Proofs.ImportPath
import ServiceModules.Proofs.Module.Excerpts
import ServiceModules.Proofs.Program.Bindings
import ServiceModules.Proofs.Program.Table
import ServiceModules.Proofs.Source.Row

/-!
Which import statements share a request. Requests are told apart by their paths, and paths by their
texts, so that two statements of a program that was read share a request exactly when the same
characters stand for their paths.
-/

namespace ServiceModules

def ImportRequest.Holds (request : ImportRequest) (program : Program) (uri : String)
    (statement : ImportStatement) : Prop :=
  ∀ target ∈ statement.targets, target.symbol program uri ∈ request.symbols

/-- One request of the table holds what both statements import. -/
def SymbolTable.Shares (table : SymbolTable) (program : Program) (left right : ImportStatement) :
    Prop :=
  ∃ request ∈ table.imports, request.Holds program table.uri left ∧
    request.Holds program table.uri right

/-- The statement imports something, by a path that can be told from its text. -/
structure ImportStatement.IsLegible (statement : ImportStatement) : Prop where
  path : statement.path.IsLegible
  targets : statement.targets ≠ []

namespace Program

variable {program : Program} {uri : String} {table : SymbolTable}
  {statement left right : ImportStatement}

theorem isToldBy_of_symbolTable (made : program.symbolTable uri = .ok table) :
    program.IsToldBy uri table := by
  obtain ⟨clear, rfl⟩ := eq_of_symbolTable_eq_ok made
  have names := nodup_names_of_clash?_eq_none clear
  exact isToldBy_of_nodup (List.nodup_append.mp names).2.1

namespace IsToldBy

theorem exists_request (told : program.IsToldBy uri table)
    (isImport : statement ∈ program.imports) :
    ∃ request ∈ table.imports, request.path = statement.path := by
  have isPath : statement.path ∈ (program.imports.map ImportStatement.path).eraseDups :=
    List.mem_eraseDups.mpr (List.mem_map_of_mem isImport)
  rw [← told.paths] at isPath
  exact List.mem_map.mp isPath

theorem holds_of_path (told : program.IsToldBy uri table) (isImport : statement ∈ program.imports)
    {request : ImportRequest} (isRequest : request ∈ table.imports)
    (samePath : request.path = statement.path) : request.Holds program uri statement := by
  intro target isTarget
  rw [told.symbols request isRequest]
  apply List.mem_map_of_mem
  exact List.mem_flatMap.mpr
    ⟨statement, List.mem_filter.mpr ⟨isImport, decide_eq_true samePath.symm⟩, isTarget⟩

theorem path_of_holds (told : program.IsToldBy uri table) (isImport : statement ∈ program.imports)
    (some : statement.targets ≠ []) {request : ImportRequest} (isRequest : request ∈ table.imports)
    (holds : request.Holds program uri statement) : request.path = statement.path := by
  obtain ⟨target, isTarget⟩ := List.exists_mem_of_ne_nil _ some
  obtain ⟨own, isOwn, ownPath⟩ := told.exists_request isImport
  have isIn : target ∈ program.targets := List.mem_flatMap.mpr ⟨statement, isImport, isTarget⟩
  have inOwn := told.holds_of_path isImport isOwn ownPath target isTarget
  have same := (told.unique target isIn).unique ⟨isRequest, holds target isTarget⟩ ⟨isOwn, inOwn⟩
  rw [same, ownPath]

theorem shares_iff (told : program.IsToldBy uri table) (isLeft : left ∈ program.imports)
    (isRight : right ∈ program.imports) (leftSome : left.targets ≠ [])
    (rightSome : right.targets ≠ []) :
    table.Shares program left right ↔ left.path = right.path := by
  rw [SymbolTable.Shares, told.uri_eq]
  constructor
  · rintro ⟨request, isRequest, holdsLeft, holdsRight⟩
    rw [← told.path_of_holds isLeft leftSome isRequest holdsLeft,
      ← told.path_of_holds isRight rightSome isRequest holdsRight]
  · intro same
    obtain ⟨request, isRequest, path⟩ := told.exists_request isLeft
    exact ⟨request, isRequest, told.holds_of_path isLeft isRequest path,
      told.holds_of_path isRight isRequest (path.trans same)⟩

end IsToldBy

theorem isLegible_of_ofText {keepsDocumentation : Bool} {text : String}
    (read : ofText keepsDocumentation uri text = .ok program)
    (isImport : statement ∈ program.imports) : statement.IsLegible := by
  obtain ⟨parsed, parses, imports⟩ := exists_imports_of_ofText read
  rw [imports] at isImport
  have wellFormed := isWellFormed_path_of_parse parses statement isImport
  exact ⟨ImportPath.isLegible_of_isWellFormed wellFormed,
    targets_of_parse parses statement isImport⟩

end Program

/-! ## Paths and texts -/

/-- Paths are what their texts are. -/
structure ImportPath.TextsTellPaths : Prop where
  written : ∀ text, (ofText text).text = text
  read : ∀ path : ImportPath, path.IsLegible → ofText path.text = path
  dottedName : ∀ text, (ofText text).dottedName =
    String.ofList (text.toList.dropWhile (· = '.'))
  /-- Statements share a request exactly when their paths have one text. -/
  shares_iff : ∀ {program : Program} {uri table left right},
    program.symbolTable uri = .ok table → left ∈ program.imports → right ∈ program.imports →
    left.IsLegible → right.IsLegible →
      (table.Shares program left right ↔ left.path.text = right.path.text)
  /-- When the statements were read, this is what stands for their paths in the text. -/
  covers_iff : ∀ {keepsDocumentation uri source} {program : Program} {statement},
    Program.ofText keepsDocumentation uri source = .ok program → statement ∈ program.imports →
      statement.IsLegible ∧ ∀ characters, statement.pathSpan.Covers source.toList characters ↔
        characters = statement.path.text.toList

theorem ImportPath.texts_tell_paths : TextsTellPaths where
  written := text_ofText
  read := fun _ legible => legible.ofText_text
  dottedName := by
    intro text
    rw [← named_ofText, dottedName, named]
  shares_iff := by
    intro program uri table left right made isLeft isRight leftLegible rightLegible
    rw [leftLegible.path.text_inj rightLegible.path]
    exact (Program.isToldBy_of_symbolTable made).shares_iff isLeft isRight leftLegible.targets
      rightLegible.targets
  covers_iff := by
    intro keepsDocumentation uri source program statement read isImport
    have covers := ((Program.quotes_of_ofText read).of_mem_imports isImport).1
    refine ⟨Program.isLegible_of_ofText read isImport,
      fun characters => ⟨fun also => also.unique covers, ?_⟩⟩
    rintro rfl
    exact covers

/-! A path that is used again behind another one, which differs from it in a dot only. -/

def ImportStatement.relative : ImportStatement :=
  ⟨⟨1, ["a"]⟩, [⟨"B", none, ⟨⟨1, 16⟩, ⟨1, 17⟩⟩⟩], ⟨⟨1, 6⟩, ⟨1, 8⟩⟩, ⟨⟨1, 1⟩, ⟨1, 17⟩⟩⟩

def ImportStatement.absolute : ImportStatement :=
  ⟨⟨0, ["a"]⟩, [⟨"C", none, ⟨⟨2, 15⟩, ⟨2, 16⟩⟩⟩], ⟨⟨2, 6⟩, ⟨2, 7⟩⟩, ⟨⟨2, 1⟩, ⟨2, 16⟩⟩⟩

def ImportStatement.again : ImportStatement :=
  ⟨⟨1, ["a"]⟩, [⟨"D", some "E", ⟨⟨3, 16⟩, ⟨3, 22⟩⟩⟩], ⟨⟨3, 6⟩, ⟨3, 8⟩⟩, ⟨⟨3, 1⟩, ⟨3, 22⟩⟩⟩

def Program.sharing : Program :=
  ⟨[.importing .relative, .importing .absolute, .importing .again]⟩

theorem ImportPath.texts_tell_paths_sharing :
    Program.ofText false "m" "from .a import B\nfrom a import C\nfrom .a import D as E" =
        .ok .sharing ∧
      ∃ table, Program.sharing.symbolTable "m" = .ok table ∧
        table.Shares .sharing .relative .again ∧ ¬ table.Shares .sharing .relative .absolute := by
  have read : Program.ofText false "m" "from .a import B\nfrom a import C\nfrom .a import D as E" =
      .ok .sharing := by cbv
  have made : Program.sharing.symbolTable "m" =
      .ok ⟨"m", [], Program.sharing.requests "m"⟩ := by cbv
  have isRelative : ImportStatement.relative ∈ Program.sharing.imports := by decide
  have isAbsolute : ImportStatement.absolute ∈ Program.sharing.imports := by decide
  have isAgain : ImportStatement.again ∈ Program.sharing.imports := by decide
  have legible : ∀ {statement}, statement ∈ Program.sharing.imports → statement.IsLegible :=
    fun isImport => (texts_tell_paths.covers_iff read isImport).1
  refine ⟨read, _, made, ?_, ?_⟩
  · rw [texts_tell_paths.shares_iff made isRelative isAgain (legible isRelative) (legible isAgain)]
    decide
  · rw [texts_tell_paths.shares_iff made isRelative isAbsolute (legible isRelative)
      (legible isAbsolute)]
    decide

end ServiceModules
