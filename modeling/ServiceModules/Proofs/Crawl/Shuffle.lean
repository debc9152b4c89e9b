import ServiceModules.Proofs.Crawl.Portrait
import ServiceModules.Proofs.References.Shuffle

/-!
The order of import statements. Where the modules of two surroundings differ in this order only,
crawls with an empty cache go different ways and may fail at different places, but one of them
succeeds if the other one does. Then they have reached the same modules, and their results can be
resolved alike.
-/

namespace ServiceModules

/-! ## Modules and their programs -/

namespace Surroundings

def program? (surroundings : Surroundings) (configuration : Configuration)
    (source : ModuleSource) : Option Program :=
  match surroundings.read source with
  | .error _ => none
  | .ok bytes =>
    match Charset.decodeNamed configuration.charset bytes with
    | .error _ => none
    | .ok text => (Program.ofText configuration.keepsDocumentation source.uri text).toOption

variable {surroundings : Surroundings} {configuration : Configuration} {source : ModuleSource}

theorem program?_of_load_eq_ok {module : Module}
    (loaded : surroundings.load configuration source = .ok module) :
    surroundings.program? configuration source = some module.program ∧
      module.program.symbolTable module.uri = .ok module.table := by
  rw [Surroundings.load, World.load] at loaded
  split at loaded
  · cases loaded
  · next bytes read =>
    have contents : surroundings.read source = .ok bytes := read
    rcases Module.ofText_of_ofBytes_eq_ok loaded with ⟨text, decoded, readText⟩
    rcases Module.eq_of_ofText_eq_ok readText with ⟨program, parsed, clear, rfl⟩
    constructor
    · simp only [program?, contents, decoded, parsed]
      rfl
    · simp only [Program.symbolTable, clear]

theorem exists_load_iff :
    (∃ module, surroundings.load configuration source = .ok module) ↔
      ∃ program table, surroundings.program? configuration source = some program ∧
        program.symbolTable source.uri = .ok table := by
  constructor
  · rintro ⟨module, loaded⟩
    rcases program?_of_load_eq_ok loaded with ⟨parsed, made⟩
    rw [uri_of_load_eq_ok loaded] at made
    exact ⟨_, _, parsed, made⟩
  · rintro ⟨program, table, parsed, made⟩
    rw [program?] at parsed
    split at parsed
    · cases parsed
    · next bytes read =>
      split at parsed
      · cases parsed
      · next text decoded =>
        have readText : Program.ofText configuration.keepsDocumentation source.uri text =
            .ok program := by
          cases outcome : Program.ofText configuration.keepsDocumentation source.uri text with
          | error fault =>
              rw [outcome] at parsed
              cases parsed
          | ok other =>
              rw [outcome] at parsed
              cases parsed
              rfl
        have contents : surroundings.world.read [] source = .ok bytes := read
        refine ⟨⟨source.uri, text, program, table⟩, ?_⟩
        simp only [Surroundings.load, World.load, contents, Module.ofBytes, decoded, Module.ofText,
          readText, made]

end Surroundings

/-- Two modules that were just read, from texts whose import statements differ in their order. -/
structure Module.Shuffles (place : String → Displacement) (left right : Module) : Prop where
  uri : right.uri = left.uri
  program : left.program.Shuffles (place left.uri) right.program
  leftTable : left.program.symbolTable left.uri = .ok left.table
  rightTable : right.program.symbolTable right.uri = .ok right.table

namespace Module

theorem unbound_unbound (module : Module) : module.unbound.unbound = module.unbound := by
  apply unbound_eq_self
  intro request member
  rcases List.mem_map.mp member with ⟨_, _, rfl⟩
  rfl

theorem shuffles_of_ofText {place : String → Displacement} {keeps : Bool}
    {uri leftText rightText : String} {left right : Module}
    (leftRead : ofText keeps uri leftText = .ok left)
    (rightRead : ofText keeps uri rightText = .ok right)
    (programs : left.program.Shuffles (place uri) right.program) : left.Shuffles place right := by
  rcases eq_of_ofText_eq_ok leftRead with ⟨leftProgram, _, leftClear, rfl⟩
  rcases eq_of_ofText_eq_ok rightRead with ⟨rightProgram, _, rightClear, rfl⟩
  exact
    { uri := rfl
      program := programs
      leftTable := by simp only [Program.symbolTable, leftClear]
      rightTable := by simp only [Program.symbolTable, rightClear] }

def paths (module : Module) : List ImportPath := module.table.imports.map ImportRequest.path

theorem paths_of_symbolTable_eq_ok {module : Module}
    (made : module.program.symbolTable module.uri = .ok module.table) :
    module.paths = module.program.paths := by
  rw [paths, (Program.eq_of_symbolTable_eq_ok made).2, Program.requests_eq, List.map_map]
  exact List.map_id' _

theorem Shuffles.mem_paths_iff {place : String → Displacement} {left right : Module}
    (shuffles : left.Shuffles place right) (path : ImportPath) :
    path ∈ right.paths ↔ path ∈ left.paths := by
  rw [paths_of_symbolTable_eq_ok shuffles.leftTable, paths_of_symbolTable_eq_ok shuffles.rightTable]
  exact shuffles.program.paths_perm.mem_iff

end Module

namespace Surroundings

/-! ## What is reachable -/

section

variable (configuration : Configuration) (left right : Surroundings) (leftRoot rightRoot : Module)

/-- Every module on the left has a twin on the right that imports by the same paths. -/
def HasTwins : Prop :=
  ∀ module, left.Holds configuration leftRoot module →
    ∃ twin, right.Holds configuration rightRoot twin ∧ twin.uri = module.uri ∧
      ∀ path, path ∈ twin.paths ↔ path ∈ module.paths

variable {configuration left right leftRoot rightRoot}
variable (leads : ∀ requester path, right.leadsTo? requester path = left.leadsTo? requester path)

include leads

theorem exists_finds_right {requester : String} {path : ImportPath} {source : ModuleSource}
    (finds : left.Finds requester path source) :
    ∃ other, right.Finds requester path other ∧ other.uri = source.uri := by
  rw [← leadsTo?_eq_some_iff, leads, leadsTo?_eq_some_iff]
  exact ⟨source, finds, rfl⟩

theorem HasTwins.reachable (twins : HasTwins configuration left right leftRoot rightRoot)
    (sameRoot : rightRoot.uri = leftRoot.uri) {uri : String}
    (reachable : left.Reachable configuration leftRoot uri) :
    right.Reachable configuration rightRoot uri := by
  induction reachable with
  | root => exact sameRoot ▸ .root
  | @step module request source _ holds member finds induction =>
      rcases twins module holds with ⟨twin, holdsTwin, sameUri, samePaths⟩
      have imported := (samePaths request.path).mpr (List.mem_map_of_mem member)
      rcases List.mem_map.mp imported with ⟨requestTwin, memberTwin, samePath⟩
      rcases exists_finds_right leads finds with ⟨other, findsOther, same⟩
      rw [← sameUri, ← samePath] at findsOther
      rw [← sameUri] at induction
      rw [← same]
      exact .step induction holdsTwin memberTwin findsOther

theorem HasTwins.isSound (twins : HasTwins configuration left right leftRoot rightRoot)
    {uri : String} (sound : left.IsSound configuration leftRoot uri) :
    right.IsSound configuration rightRoot uri := by
  rcases sound with ⟨module, holds, rfl, located⟩
  rcases twins module holds with ⟨twin, holdsTwin, sameUri, samePaths⟩
  refine ⟨twin, holdsTwin, sameUri, fun request member => ?_⟩
  have imported := (samePaths request.path).mp (List.mem_map_of_mem member)
  rcases List.mem_map.mp imported with ⟨before, beforeMember, samePath⟩
  rcases located before beforeMember with ⟨source, finds⟩
  rcases exists_finds_right leads finds with ⟨other, findsOther, _⟩
  rw [samePath] at findsOther
  exact ⟨other, findsOther⟩

end

/-! ## Surroundings whose modules are shuffled -/

/-- Imports lead to the same modules on either side, and under one identifier the sides hold
programs that differ in the order of their import statements, or none. -/
structure Shuffles (place : String → Displacement) (configuration : Configuration)
    (left right : Surroundings) : Prop where
  leads : ∀ requester path, right.leadsTo? requester path = left.leadsTo? requester path
  programs : ∀ leftSource rightSource, left.Serves leftSource → right.Serves rightSource →
    leftSource.uri = rightSource.uri →
    Option.Rel (Program.Shuffles (place leftSource.uri))
      (left.program? configuration leftSource) (right.program? configuration rightSource)

namespace Shuffles

variable {place : String → Displacement} {configuration : Configuration}
  {left right : Surroundings} (shuffles : left.Shuffles place configuration right)

include shuffles

theorem exists_load_iff {leftSource rightSource : ModuleSource}
    (leftServes : left.Serves leftSource) (rightServes : right.Serves rightSource)
    (same : leftSource.uri = rightSource.uri) :
    (∃ module, left.load configuration leftSource = .ok module) ↔
      ∃ module, right.load configuration rightSource = .ok module := by
  have programs := shuffles.programs _ _ leftServes rightServes same
  rw [Surroundings.exists_load_iff, Surroundings.exists_load_iff, ← same]
  generalize left.program? configuration leftSource = leftProgram,
    right.program? configuration rightSource = rightProgram at programs
  cases programs with
  | none => simp
  | some shuffled => simpa using shuffled.exists_symbolTable_iff

theorem module_shuffles {leftSource rightSource : ModuleSource}
    (leftServes : left.Serves leftSource) (rightServes : right.Serves rightSource)
    (same : leftSource.uri = rightSource.uri)
    {leftModule rightModule : Module}
    (leftLoaded : left.load configuration leftSource = .ok leftModule)
    (rightLoaded : right.load configuration rightSource = .ok rightModule) :
    leftModule.Shuffles place rightModule := by
  have programs := shuffles.programs _ _ leftServes rightServes same
  rcases program?_of_load_eq_ok leftLoaded with ⟨leftParsed, leftMade⟩
  rcases program?_of_load_eq_ok rightLoaded with ⟨rightParsed, rightMade⟩
  have leftUri := uri_of_load_eq_ok leftLoaded
  have rightUri := uri_of_load_eq_ok rightLoaded
  rw [leftParsed, rightParsed, ← leftUri] at programs
  cases programs with
  | some shuffled => exact ⟨rightUri.trans (same.symm.trans leftUri.symm), shuffled, leftMade,
      rightMade⟩

variable {leftRoot rightRoot : Module} (roots : leftRoot.Shuffles place rightRoot)

include roots

theorem exists_right {module : Module} (holds : left.Holds configuration leftRoot module) :
    ∃ twin, right.Holds configuration rightRoot twin ∧ module.Shuffles place twin := by
  cases holds with
  | root => exact ⟨rightRoot, .root, roots⟩
  | @served source _ serves other loaded =>
      rcases serves with ⟨requester, path, finds⟩
      rcases exists_finds_right shuffles.leads finds with ⟨twinSource, twinFinds, same⟩
      have serves : left.Serves source := ⟨_, _, finds⟩
      have twinServes : right.Serves twinSource := ⟨_, _, twinFinds⟩
      rcases (shuffles.exists_load_iff serves twinServes same.symm).mp ⟨module, loaded⟩ with
        ⟨twin, twinLoaded⟩
      have different : twinSource.uri ≠ rightRoot.uri := by rwa [same, roots.uri]
      exact ⟨twin, .served twinServes different twinLoaded,
        shuffles.module_shuffles serves twinServes same.symm loaded twinLoaded⟩

theorem exists_left {twin : Module} (holds : right.Holds configuration rightRoot twin) :
    ∃ module, left.Holds configuration leftRoot module ∧ module.Shuffles place twin := by
  cases holds with
  | root => exact ⟨leftRoot, .root, roots⟩
  | @served source _ serves other loaded =>
      rcases serves with ⟨requester, path, finds⟩
      rcases exists_finds_right (fun requester path => (shuffles.leads requester path).symm) finds
        with ⟨originalSource, originalFinds, same⟩
      have serves : right.Serves source := ⟨_, _, finds⟩
      have originalServes : left.Serves originalSource := ⟨_, _, originalFinds⟩
      rcases (shuffles.exists_load_iff originalServes serves same).mpr ⟨twin, loaded⟩ with
        ⟨module, originalLoaded⟩
      have different : originalSource.uri ≠ leftRoot.uri := by rwa [same, ← roots.uri]
      exact ⟨module, .served originalServes different originalLoaded,
        shuffles.module_shuffles originalServes serves same originalLoaded loaded⟩

theorem hasTwins : HasTwins configuration left right leftRoot rightRoot := by
  intro module holds
  rcases shuffles.exists_right roots holds with ⟨twin, twinHolds, shuffled⟩
  exact ⟨twin, twinHolds, shuffled.uri, shuffled.mem_paths_iff⟩

theorem hasTwins_symm : HasTwins configuration right left rightRoot leftRoot := by
  intro twin holds
  rcases shuffles.exists_left roots holds with ⟨module, originalHolds, shuffled⟩
  exact ⟨module, originalHolds, shuffled.uri.symm, fun path => (shuffled.mem_paths_iff path).symm⟩

theorem reachable_iff (uri : String) :
    left.Reachable configuration leftRoot uri ↔ right.Reachable configuration rightRoot uri :=
  ⟨(shuffles.hasTwins roots).reachable shuffles.leads roots.uri,
    (shuffles.hasTwins_symm roots).reachable
      (fun requester path => (shuffles.leads requester path).symm) roots.uri.symm⟩

theorem isSound_iff (uri : String) :
    left.IsSound configuration leftRoot uri ↔ right.IsSound configuration rightRoot uri :=
  ⟨(shuffles.hasTwins roots).isSound shuffles.leads,
    (shuffles.hasTwins_symm roots).isSound
      fun requester path => (shuffles.leads requester path).symm⟩

end Shuffles

/-! ## What the records are -/

theorem Portrays.imports_eq {surroundings : Surroundings} {configuration : Configuration}
    {root module : Module} (portrays : surroundings.Portrays configuration root module)
    (made : module.program.symbolTable module.uri = .ok module.unbound.table) :
    module.table.imports = module.program.paths.map fun path =>
      { module.program.request module.uri path with
        target := surroundings.leadsTo? module.uri path } := by
  have requests : module.table.imports.map ImportRequest.unbound =
      module.program.paths.map (module.program.request module.uri) := by
    rw [← Module.unbound_imports, (Program.eq_of_symbolTable_eq_ok made).2, Program.requests_eq]
  have bound : ∀ request ∈ module.table.imports,
      { request.unbound with target := surroundings.leadsTo? module.uri request.path } =
        request := by
    intro request member
    rw [← (portrays.settled request member).target_eq]
    rfl
  calc module.table.imports
      = module.table.imports.map fun request =>
          { request.unbound with target := surroundings.leadsTo? module.uri request.path } := by
        rw [List.map_congr_left bound, List.map_id']
    _ = (module.table.imports.map ImportRequest.unbound).map fun request =>
          { request with target := surroundings.leadsTo? module.uri request.path } := by
        rw [List.map_map]
        rfl
    _ = _ := by
        rw [requests, List.map_map]
        rfl

theorem isRead_of_holds {surroundings : Surroundings} {configuration : Configuration}
    {root module : Module} (rootRead : root.IsRead)
    (holds : surroundings.Holds configuration root module) : module.IsRead := by
  cases holds with
  | root => exact rootRead
  | served _ _ loaded =>
      rw [Surroundings.load, World.load] at loaded
      split at loaded
      · cases loaded
      · exact Module.isRead_of_ofBytes_eq_ok loaded

theorem Shuffles.mirrors {place : String → Displacement} {configuration : Configuration}
    {left right : Surroundings} (shuffles : left.Shuffles place configuration right)
    {leftRoot rightRoot leftModule rightModule : Module}
    (leftPortrays : left.Portrays configuration leftRoot leftModule)
    (rightPortrays : right.Portrays configuration rightRoot rightModule)
    (shuffled : leftModule.unbound.Shuffles place rightModule.unbound) :
    leftModule.Mirrors place rightModule := by
  have program : leftModule.program.Shuffles (place leftModule.uri) rightModule.program :=
    shuffled.program
  have sameUri : rightModule.uri = leftModule.uri := shuffled.uri
  refine
    { uri := sameUri
      program := program
      declared := ?_
      imports := ?_ }
  · have leftTable := (Program.eq_of_symbolTable_eq_ok shuffled.leftTable).2
    have rightTable := (Program.eq_of_symbolTable_eq_ok shuffled.rightTable).2
    have leftDeclared : leftModule.table.declared =
        leftModule.program.declarations.map (Declaration.symbol leftModule.uri) :=
      congrArg SymbolTable.declared leftTable
    have rightDeclared : rightModule.table.declared =
        rightModule.program.declarations.map (Declaration.symbol rightModule.uri) :=
      congrArg SymbolTable.declared rightTable
    rw [leftDeclared, rightDeclared, sameUri, program.symbols_eq]
  · have leftImports := leftPortrays.imports_eq shuffled.leftTable
    have rightImports := rightPortrays.imports_eq shuffled.rightTable
    -- The right requests in the order in which the left module imports their paths.
    refine ⟨leftModule.program.paths.map fun path =>
      { rightModule.program.request rightModule.uri path with
        target := right.leadsTo? rightModule.uri path }, ?_, ?_⟩
    · rw [rightImports]
      exact program.paths_perm.symm.map _
    · rw [leftImports, List.forall₂_map_left_iff, List.forall₂_map_right_iff, List.forall₂_same]
      intro path member
      have same := program.matches_request member
      exact
        { path := same.path
          target := by simp only [sameUri, shuffles.leads]
          symbols := sameUri ▸ same.symbols
          leftLocation := same.leftLocation
          rightLocation := sameUri ▸ same.rightLocation }

end Surroundings

namespace CrawlResult

theorem Portrays.isRead {surroundings : Surroundings} {configuration : Configuration}
    {root : Module} {result : CrawlResult} (rootRead : root.IsRead)
    (portrays : result.Portrays surroundings configuration root) : result.IsRead where
  distinct := portrays.distinct
  named := fun uri record member =>
    (portrays.portrayed uri record (get?_of_mem_entries portrays.distinct member)).1
  read := by
    intro record member
    rcases List.mem_map.mp member with ⟨⟨uri, _⟩, entryMember, rfl⟩
    have found := get?_of_mem_entries portrays.distinct entryMember
    have held := (portrays.portrayed uri _ found).2.held
    exact Module.isRead_of_unbound_eq (Module.unbound_unbound _).symm
      (Surroundings.isRead_of_holds rootRead held)

/-- Results of crawls in shuffled surroundings mirror each other. -/
theorem Portrays.mirrors {place : String → Displacement} {configuration : Configuration}
    {left right : Surroundings} (shuffles : left.Shuffles place configuration right)
    {leftRoot rightRoot : Module} (roots : leftRoot.Shuffles place rightRoot)
    {leftResult rightResult : CrawlResult}
    (leftPortrays : leftResult.Portrays left configuration leftRoot)
    (rightPortrays : rightResult.Portrays right configuration rightRoot) :
    leftResult.Mirrors place rightResult where
  uris := by
    intro uri
    rw [leftPortrays.mem_uris_iff, rightPortrays.mem_uris_iff, shuffles.reachable_iff roots]
  modules := by
    intro uri leftRecord rightRecord leftFound rightFound
    rcases leftPortrays.portrayed uri leftRecord leftFound with ⟨leftNamed, leftModule⟩
    rcases rightPortrays.portrayed uri rightRecord rightFound with ⟨rightNamed, rightModule⟩
    -- The twin of the left module is held under the identifier of the right one, so that it is
    -- this one.
    rcases shuffles.exists_right roots leftModule.held with ⟨twin, twinHolds, shuffled⟩
    have sameUri : twin.uri = rightRecord.module.unbound.uri :=
      shuffled.uri.trans (leftNamed.trans rightNamed.symm)
    rw [twinHolds.unique rightModule.held sameUri] at shuffled
    exact shuffles.mirrors leftModule rightModule shuffled

end CrawlResult

namespace Crawl

variable {place : String → Displacement} {configuration : Configuration}
  {left right : Surroundings} {leftRoot rightRoot : ModuleRecord}

/-- The order of import statements does not matter. Take two surroundings where imports lead to the
same modules, and where each of these has the same declarations and import statements but for the
order of the statements, wherever their places have come to, and two roots of which the same is
true. With empty caches, one crawl succeeds if the other one does. Then both have reached the same
modules, with the same declarations and the same requests up to the order of these and of their
symbols and up to which statement gives a request its place. One of the results can be resolved if
the other one can, and then every declaration has the same places in both. -/
theorem crawl_shuffled (shuffles : left.Shuffles place configuration right) {keeps : Bool}
    {uri leftText rightText : String}
    (leftRead : Module.ofText keeps uri leftText = .ok leftRoot.module)
    (rightRead : Module.ofText keeps uri rightText = .ok rightRoot.module)
    (programs : leftRoot.module.program.Shuffles (place uri) rightRoot.module.program)
    (leftNext rightNext : Nat) :
    let leftCrawl count :=
      (start left.world ⟨[], leftNext⟩ leftRoot).run configuration left.world count
    let rightCrawl count :=
      (start right.world ⟨[], rightNext⟩ rightRoot).run configuration right.world count
    ((∃ count result, (leftCrawl count).outcome? = some (.ok result)) ↔
      ∃ count result, (rightCrawl count).outcome? = some (.ok result)) ∧
    ∀ leftCount rightCount leftResult rightResult,
      (leftCrawl leftCount).outcome? = some (.ok leftResult) →
      (rightCrawl rightCount).outcome? = some (.ok rightResult) →
      leftResult.Mirrors place rightResult ∧
      ((∃ references, leftResult.references = .ok references) ↔
        ∃ references, rightResult.references = .ok references) ∧
      ∀ leftReferences rightReferences, leftResult.references = .ok leftReferences →
        rightResult.references = .ok rightReferences →
        ∀ uri record symbol, leftResult.get? uri = some record →
          symbol ∈ record.module.table.declared →
          Option.Rel (fun leftSites rightSites =>
              rightSites.Perm (leftSites.map (Location.moved place)))
            (leftReferences.sitesOf? uri symbol)
            (rightReferences.sitesOf? uri (symbol.moved place)) := by
  intro leftCrawl rightCrawl
  have leftFree := Module.unbound_eq_self (Module.target_of_ofText_eq_ok leftRead)
  have rightFree := Module.unbound_eq_self (Module.target_of_ofText_eq_ok rightRead)
  have roots := Module.shuffles_of_ofText leftRead rightRead programs
  constructor
  -- Whether a crawl succeeds depends on what is reachable and sound, and both sides agree
  -- on that.
  · rw [exists_result_iff leftFree, exists_result_iff rightFree]
    simp only [shuffles.reachable_iff roots, shuffles.isSound_iff roots]
  · intro leftCount rightCount leftResult rightResult leftFinished rightFinished
    have leftPortrays := portrays_of_outcome? leftFree leftFinished
    have rightPortrays := portrays_of_outcome? rightFree rightFinished
    have leftIsRead := leftPortrays.isRead (Module.isRead_of_ofText_eq_ok leftRead)
    have rightIsRead := rightPortrays.isRead (Module.isRead_of_ofText_eq_ok rightRead)
    have mirrors := leftPortrays.mirrors shuffles roots rightPortrays
    refine ⟨mirrors, mirrors.exists_references_iff leftIsRead.distinct rightIsRead.distinct, ?_⟩
    intro leftReferences rightReferences leftResolved rightResolved uri record symbol found declared
    exact mirrors.sitesOf?_rel leftIsRead rightIsRead leftResolved rightResolved found declared

/-! A root with its two import statements the other way round. -/

def siblings : Surroundings := .ofTexts [("b", "type B: int"), ("c", "type C: int")]

def siblingsText : String := "from b import B\nfrom c import C\ntype A: B"

def swappedText : String := "from c import C\nfrom b import B\ntype A: B"

def siblingsRoot : ModuleRecord := ⟨(Module.ofText false "a" siblingsText).toOption.getD default, 0⟩

def swappedRoot : ModuleRecord := ⟨(Module.ofText false "a" swappedText).toOption.getD default, 0⟩

def swapping (uri : String) : Displacement :=
  .uniform fun position =>
    if uri = "a" ∧ position.line < 3 then ⟨3 - position.line, position.column⟩ else position

theorem siblings_shuffles : siblings.Shuffles swapping default siblings where
  leads := fun _ _ => rfl
  programs := by
    intro leftSource rightSource leftServes rightServes same
    rcases Surroundings.ofTexts_serves leftServes with ⟨leftText, leftFound, leftHeld⟩
    rcases Surroundings.ofTexts_serves rightServes with ⟨rightText, rightFound, rightHeld⟩
    rw [← same, leftFound] at rightFound
    cases rightFound
    rw [← same, ← leftHeld] at rightHeld
    have unmoved : swapping leftSource.uri = .id := by
      have other : leftSource.uri ≠ "a" := by
        intro isRoot
        rw [isRoot] at leftFound
        cases leftFound
      simp only [swapping, other, false_and, if_false]
      rfl
    rw [rightHeld, unmoved]
    cases siblings.program? default leftSource with
    | none => exact .none
    | some program => exact .some (Program.shuffles_id_iff.mpr ⟨rfl, .refl _⟩)

theorem siblingsRoot_shuffles :
    siblingsRoot.module.program.Shuffles (swapping "a") swappedRoot.module.program where
  declarations := by cbv
  imports := by
    have reversed : swappedRoot.module.program.imports =
        (siblingsRoot.module.program.imports.map
          (ImportStatement.retouch (.moving (swapping "a")))).reverse := by cbv
    rw [reversed]
    exact List.reverse_perm _

theorem crawl_shuffled_siblings :
    siblings.Shuffles swapping default siblings ∧
      Module.ofText false "a" siblingsText = .ok siblingsRoot.module ∧
      Module.ofText false "a" swappedText = .ok swappedRoot.module ∧
      siblingsRoot.module.program.Shuffles (swapping "a") swappedRoot.module.program ∧
      ∃ leftResult rightResult,
        ((start siblings.world ⟨[], 1⟩ siblingsRoot).run default siblings.world 2).outcome?
          = some (.ok leftResult) ∧
        ((start siblings.world ⟨[], 1⟩ swappedRoot).run default siblings.world 2).outcome?
          = some (.ok rightResult) ∧
        leftResult.uris = ["a", "b", "c"] ∧ rightResult.uris = ["a", "c", "b"] ∧
        leftResult.Mirrors swapping rightResult := by
  have leftRead : Module.ofText false "a" siblingsText = .ok siblingsRoot.module := by cbv
  have rightRead : Module.ofText false "a" swappedText = .ok swappedRoot.module := by cbv
  have comes : ∃ leftResult rightResult,
      ((start siblings.world ⟨[], 1⟩ siblingsRoot).run default siblings.world 2).outcome?
        = some (.ok leftResult) ∧
      ((start siblings.world ⟨[], 1⟩ swappedRoot).run default siblings.world 2).outcome?
        = some (.ok rightResult) ∧
      leftResult.uris = ["a", "b", "c"] ∧ rightResult.uris = ["a", "c", "b"] :=
    ⟨_, _, by cbv, by cbv, by cbv, by cbv⟩
  rcases comes with ⟨leftResult, rightResult, leftFinished, rightFinished, leftUris, rightUris⟩
  have same := (crawl_shuffled siblings_shuffles leftRead rightRead siblingsRoot_shuffles 1 1).2 2 2
    leftResult rightResult leftFinished rightFinished
  exact ⟨siblings_shuffles, leftRead, rightRead, siblingsRoot_shuffles, leftResult, rightResult,
    leftFinished, rightFinished, leftUris, rightUris, same.1⟩

end Crawl

end ServiceModules
