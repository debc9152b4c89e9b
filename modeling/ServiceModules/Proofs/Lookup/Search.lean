import Mathlib
import ServiceModules.Proofs.Distinct
import ServiceModules.Proofs.Files.Walk
import ServiceModules.Proofs.Lookup.Agreement

/-!
The order of the search in files. There is a list of base directories, and below each of them a
module may be kept in a file of its own or as the entry of a directory. The file that is found is
the first one, base by base, and a missing module was looked for in all of these places. A look that
is refused, because of a place without access or of a name that is too long, ends the search with a
fault, even where no file of the module is at all.
-/

namespace ServiceModules

/-- How a module is kept below a base directory: `a.b` as `a/b.mg`, or as `a/b/mod.mg`. -/
inductive ModuleForm where
  | plain
  | package
deriving DecidableEq, Repr

namespace ModuleForm

def rank : ModuleForm → Nat
  | .plain => 0
  | .package => 1

def file (form : ModuleForm) (base : FilePath) (parts : List String) : FilePath :=
  match form with
  | .plain => base.below (parts.dropLast ++ [parts.getLastD "" ++ ".mg"])
  | .package => base.below (parts ++ ["mod.mg"])

end ModuleForm

namespace FileModules

/-- The directory of the module with an identifier, if it is kept in a file. -/
def home? (uri : Uri) : Option FilePath :=
  if uri.scheme = "file" then
    some (FilePath.ofText (String.ofList (Percent.decode uri.path))).parent
  else none

/-- The bases of a search, in their order. A relative path has the directory of the requesting
module, without as many of its last names as there are dots behind the first; at the root there are
no more names to leave. An absolute path has this directory and the package paths. -/
def searchBases (modules : FileModules) (home : Option FilePath) (path : ImportPath) :
    List FilePath :=
  if path.level = 0 then home.toList ++ modules.packagePaths
  else
    home.toList.map fun directory =>
      { directory with parts := directory.parts.take (directory.parts.length - (path.level - 1)) }

def Keeps (modules : FileModules) (parts : List String) (base : FilePath) (form : ModuleForm) :
    Prop :=
  modules.tree.isFile modules.current (form.file base parts) = .ok true

def Stops (modules : FileModules) (parts : List String) (base : FilePath) (form : ModuleForm) :
    Prop :=
  modules.tree.isFile modules.current (form.file base parts) ≠ .ok false

structure IsLeast (sought : FilePath → ModuleForm → Prop) (bases : List FilePath) (index : Nat)
    (base : FilePath) (form : ModuleForm) : Prop where
  isBase : bases[index]? = some base
  holds : sought base form
  least : ∀ otherIndex otherBase otherForm, bases[otherIndex]? = some otherBase →
    sought otherBase otherForm →
      index < otherIndex ∨ index = otherIndex ∧ form.rank ≤ otherForm.rank

/-- The items of a list without repetitions, in the order in which they first stand there. -/
structure IsDistinct (distinct items : List FilePath) : Prop where
  nodup : distinct.Nodup
  mem_iff : ∀ item, item ∈ distinct ↔ item ∈ items
  inOrder : distinct.Pairwise fun left right => items.idxOf left < items.idxOf right

theorem isDistinct_eraseDups (items : List FilePath) : IsDistinct items.eraseDups items where
  nodup := nodup_eraseDups items
  mem_iff := fun _ => List.mem_eraseDups
  inOrder := pairwise_idxOf_eraseDups items

/-! ## Bases and places -/

variable {modules : FileModules} {requester : String} {path : ImportPath} {bases : List FilePath}
  {parts : List String}

theorem directoryOf?_eq_of_split {uri : Uri} (isUri : Uri.split requester = .ok uri) :
    directoryOf? requester = .ok (home? uri) := by
  by_cases isFile : uri.scheme = "file"
  · simp [directoryOf?, Uri.isFile, Uri.toPath, isUri, Except.map, home?, isFile, Uri.fileScheme]
  · simp [directoryOf?, Uri.isFile, isUri, Except.map, home?, isFile, Uri.fileScheme]

theorem bases_eq (modules : FileModules) (home : Option FilePath) (path : ImportPath) :
    modules.bases home path = (modules.searchBases home path).eraseDups := by
  by_cases absolute : path.level = 0
  · have notRelative : ¬ path.isRelative = true := by simp [ImportPath.isRelative, absolute]
    rw [bases, if_neg notRelative, searchBases, if_pos absolute]
  · have isRelative : path.isRelative = true := by
      simp only [ImportPath.isRelative, decide_eq_true_eq]
      omega
    rw [bases, if_pos isRelative, searchBases, if_neg absolute]
    cases home with
    | none => rfl
    | some directory => simp [climb_eq, List.eraseDups_cons]

theorem candidates_eq_forms (base : FilePath) (wellFormed : path.isWellFormed = true) :
    candidates base path.parts =
      [ModuleForm.plain.file base path.parts, ModuleForm.package.file base path.parts] := by
  obtain ⟨nonempty, identifiers⟩ := ImportPath.isWellFormed_iff.mp wellFormed
  rw [candidates_eq base nonempty identifiers, DottedName.fileNamesOf, DottedName.fileNamesOf,
    List.dropLast_concat, List.getLastD_concat]
  rfl

def firstBelow (modules : FileModules) (parts : List String) (base : FilePath) : Option FilePath :=
  [ModuleForm.plain.file base parts, ModuleForm.package.file base parts].find?
    fun place => endsSearch (modules.tree.isFile modules.current place)

theorem endsSearch_iff_stops {base : FilePath} {form : ModuleForm} :
    endsSearch (modules.tree.isFile modules.current (form.file base parts)) = true ↔
      modules.Stops parts base form := by
  rw [Stops, ne_eq, ← endsSearch_eq_false_iff, Bool.not_eq_false]

theorem firstBelow_eq_none_iff {base : FilePath} :
    modules.firstBelow parts base = none ↔ ∀ form, ¬ modules.Stops parts base form := by
  rw [firstBelow, List.find?_eq_none]
  constructor
  · intro nothing form stops
    apply nothing (form.file base parts)
    · cases form <;> simp
    · exact endsSearch_iff_stops.mpr stops
  · intro nothing place isPlace
    rcases List.mem_pair.mp isPlace with rfl | rfl
    · exact mt endsSearch_iff_stops.mp (nothing .plain)
    · exact mt endsSearch_iff_stops.mp (nothing .package)

theorem exists_form_of_firstBelow {base place : FilePath}
    (first : modules.firstBelow parts base = some place) :
    ∃ form : ModuleForm, place = form.file base parts ∧ modules.Stops parts base form ∧
      ∀ other, modules.Stops parts base other → form.rank ≤ other.rank := by
  by_cases stopsPlain : modules.Stops parts base .plain
  · rw [firstBelow, List.find?, endsSearch_iff_stops.mpr stopsPlain] at first
    cases first
    exact ⟨.plain, rfl, stopsPlain, fun other _ => Nat.zero_le _⟩
  · have goesOn := Bool.eq_false_iff.mpr (mt endsSearch_iff_stops.mp stopsPlain)
    rw [firstBelow, List.find?, goesOn] at first
    have stops : endsSearch (modules.tree.isFile modules.current place) = true :=
      List.find?_some (p := fun place => endsSearch (modules.tree.isFile modules.current place))
        first
    cases List.mem_singleton.mp (List.mem_of_find?_eq_some first)
    refine ⟨.package, rfl, endsSearch_iff_stops.mp stops, ?_⟩
    intro other stopsOther
    cases other with
    | plain => exact absurd stopsOther stopsPlain
    | package => exact Nat.le_refl _

/-- The first place where a search stops tells what it comes to. -/
theorem find_eq {uri : Uri} (isUri : Uri.split requester = .ok uri)
    (wellFormed : path.isWellFormed = true) :
    modules.find requester path =
      match (modules.searchBases (home? uri) path).findSome? (modules.firstBelow path.parts) with
      | some place =>
        match modules.tree.isFile modules.current place with
        | .error fault => .error (.file fault)
        | .ok _ => .ok (.found (source modules.current place))
      | none => .ok (.missing ⟨path,
          (modules.searchBases (home? uri) path).eraseDups.flatMap fun base =>
            [(ModuleForm.plain.file base path.parts).text,
              (ModuleForm.package.file base path.parts).text],
          requester⟩) := by
  have places : ∀ bases : List FilePath, (bases.flatMap fun base => candidates base path.parts) =
      bases.flatMap fun base =>
        [ModuleForm.plain.file base path.parts, ModuleForm.package.file base path.parts] := by
    intro bases
    simp only [candidates_eq_forms _ wellFormed]
  have first := findSome?_eraseDups (modules.firstBelow path.parts)
    (modules.searchBases (home? uri) path)
  simp only [find, directoryOf?_eq_of_split isUri, bases_eq, places, findM?_eq, List.find?_flatMap,
    List.map_flatMap]
  rw [← first]
  cases searched : (modules.searchBases (home? uri) path).eraseDups.findSome?
      (modules.firstBelow path.parts) with
  | none =>
      unfold firstBelow at searched
      rw [searched]
      rfl
  | some place =>
      unfold firstBelow at searched
      rw [searched]
      dsimp only
      cases modules.tree.isFile modules.current place <;> rfl

/-! ## The first place -/

theorem findSome?_firstBelow_eq_none_iff :
    bases.findSome? (modules.firstBelow parts) = none ↔
      ∀ base ∈ bases, ∀ form, ¬ modules.Stops parts base form := by
  rw [List.findSome?_eq_none_iff]
  simp only [firstBelow_eq_none_iff]

theorem exists_isLeast {place : FilePath}
    (first : bases.findSome? (modules.firstBelow parts) = some place) :
    ∃ index base form, IsLeast (modules.Stops parts) bases index base form ∧
      place = form.file base parts := by
  obtain ⟨before, base, after, split, here, nothing⟩ := List.findSome?_eq_some_iff.mp first
  obtain ⟨form, same, stops, leastForm⟩ := exists_form_of_firstBelow here
  refine ⟨before.length, base, form, ⟨by simp [split], stops, ?_⟩, same⟩
  intro otherIndex otherBase otherForm isBase otherStops
  rw [split] at isBase
  rcases Nat.lt_trichotomy otherIndex before.length with earlier | atBase | later
  · rw [List.getElem?_append_left earlier] at isBase
    have none := nothing otherBase (List.mem_of_getElem? isBase)
    exact absurd otherStops (firstBelow_eq_none_iff.mp none otherForm)
  · right
    rw [atBase, List.getElem?_append_right (Nat.le_refl _), Nat.sub_self] at isBase
    cases isBase
    exact ⟨atBase.symm, leastForm otherForm otherStops⟩
  · exact .inl later

theorem IsLeast.unique {sought : FilePath → ModuleForm → Prop} {index otherIndex : Nat}
    {base otherBase : FilePath} {form otherForm : ModuleForm}
    (least : IsLeast sought bases index base form)
    (other : IsLeast sought bases otherIndex otherBase otherForm) :
    base = otherBase ∧ form = otherForm := by
  have ahead := least.least otherIndex otherBase otherForm other.isBase other.holds
  have behind := other.least index base form least.isBase least.holds
  have sameIndex : index = otherIndex := by omega
  have sameRank : form.rank = otherForm.rank := by omega
  have sameBase := least.isBase
  rw [sameIndex, other.isBase] at sameBase
  constructor
  · exact (Option.some.inj sameBase).symm
  · cases form <;> cases otherForm <;> first | rfl | cases sameRank

theorem findSome?_firstBelow_eq_some_iff {place : FilePath} :
    bases.findSome? (modules.firstBelow parts) = some place ↔
      ∃ index base form, IsLeast (modules.Stops parts) bases index base form ∧
        place = form.file base parts := by
  constructor
  · exact exists_isLeast
  · intro isFirst
    obtain ⟨index, base, form, least, isPlace⟩ := isFirst
    cases first : bases.findSome? (modules.firstBelow parts) with
    | none =>
        have nothing := findSome?_firstBelow_eq_none_iff.mp first
        exact absurd least.holds (nothing base (List.mem_of_getElem? least.isBase) form)
    | some other =>
        obtain ⟨_, _, _, otherLeast, isOther⟩ := exists_isLeast first
        obtain ⟨sameBase, sameForm⟩ := least.unique otherLeast
        rw [isOther, isPlace, sameBase, sameForm]

/-! ## What a search comes to -/

/-- A search finds the first file of the module, and nothing just when there is none. -/
structure FindsFirst (modules : FileModules) (requester : String) (path : ImportPath)
    (bases : List FilePath) : Prop where
  returns : ∀ fault, modules.find requester path ≠ .error fault
  found_iff : ∀ found, modules.find requester path = .ok (.found found) ↔
    ∃ index base form, IsLeast (modules.Keeps path.parts) bases index base form ∧
      found = source modules.current (form.file base path.parts)
  missing_iff : (∃ missing, modules.find requester path = .ok (.missing missing)) ↔
    ∀ base ∈ bases, ∀ form, ¬ modules.Keeps path.parts base form

/-- A search goes through the bases, and below each of them through the forms, until there is the
file or the look is refused. -/
structure SearchesInOrder (modules : FileModules) (requester : String) (path : ImportPath)
    (bases : List FilePath) : Prop where
  found_iff : ∀ found, modules.find requester path = .ok (.found found) ↔
    ∃ index base form, IsLeast (modules.Stops path.parts) bases index base form ∧
      modules.Keeps path.parts base form ∧
      found = source modules.current (form.file base path.parts)
  failed_iff : ∀ fault, modules.find requester path = .error fault ↔
    ∃ index base form problem, IsLeast (modules.Stops path.parts) bases index base form ∧
      modules.tree.Refuses modules.current (form.file base path.parts) problem ∧
      fault = .file (.refused problem (form.file base path.parts))
  missing_iff : (∃ missing, modules.find requester path = .ok (.missing missing)) ↔
    ∀ base ∈ bases, ∀ form, ¬ modules.Stops path.parts base form
  /-- Where no look is refused, the file that is found is the first one of the module. -/
  findsFirst :
    (∀ base ∈ bases, ∀ form problem,
      ¬ modules.tree.Refuses modules.current (ModuleForm.file form base path.parts) problem) →
        modules.FindsFirst requester path bases
  /-- What stands at the place of the file stands where its source says that it is stored. -/
  stored : ∀ base form entry,
    modules.tree.find modules.current (ModuleForm.file form base path.parts) = .ok entry →
      modules.tree.find modules.current
        (modules.current.resolve (ModuleForm.file form base path.parts)) = .ok entry
  looked : ∀ missing, modules.find requester path = .ok (.missing missing) →
    ∃ distinct, IsDistinct distinct bases ∧
      missing = ⟨path,
        distinct.flatMap fun base => [(ModuleForm.plain.file base path.parts).text,
          (ModuleForm.package.file base path.parts).text],
        requester⟩
  relative : 1 ≤ path.level → ∀ others,
    find ⟨modules.tree, modules.current, others⟩ requester path = modules.find requester path

theorem find_of_relative (modules : FileModules) (requester : String) (relative : 1 ≤ path.level)
    (others : List FilePath) :
    find ⟨modules.tree, modules.current, others⟩ requester path = modules.find requester path := by
  have isRelative : path.isRelative = true := decide_eq_true relative
  simp only [find, bases, isRelative, if_true]

section

variable {uri : Uri} (isUri : Uri.split requester = .ok uri)
  (wellFormed : path.isWellFormed = true)
include isUri wellFormed

theorem find_eq_found_iff {found : ModuleSource} :
    modules.find requester path = .ok (.found found) ↔
      ∃ index base form,
        IsLeast (modules.Stops path.parts) (modules.searchBases (home? uri) path) index base form ∧
        modules.Keeps path.parts base form ∧
        found = source modules.current (form.file base path.parts) := by
  rw [find_eq isUri wellFormed]
  constructor
  · intro isFound
    split at isFound
    · next place first =>
      obtain ⟨index, base, form, least, rfl⟩ := findSome?_firstBelow_eq_some_iff.mp first
      split at isFound
      · cases isFound
      · next answer isAnswer =>
        cases isFound
        have stops := least.holds
        rw [Stops, isAnswer] at stops
        cases answer with
        | false => exact absurd rfl stops
        | true => exact ⟨index, base, form, least, isAnswer, rfl⟩
    · cases isFound
  · rintro ⟨index, base, form, least, keeps, rfl⟩
    rw [findSome?_firstBelow_eq_some_iff.mpr ⟨index, base, form, least, rfl⟩]
    dsimp only
    rw [show modules.tree.isFile modules.current (form.file base path.parts) = .ok true from keeps]

theorem find_eq_error_iff {fault : Fault} :
    modules.find requester path = .error fault ↔
      ∃ index base form problem,
        IsLeast (modules.Stops path.parts) (modules.searchBases (home? uri) path) index base form ∧
        modules.tree.Refuses modules.current (form.file base path.parts) problem ∧
        fault = .file (.refused problem (form.file base path.parts)) := by
  rw [find_eq isUri wellFormed]
  constructor
  · intro failed
    split at failed
    · next place first =>
      obtain ⟨index, base, form, least, rfl⟩ := findSome?_firstBelow_eq_some_iff.mp first
      split at failed
      · next fileFault isFault =>
        cases failed
        obtain ⟨problem, refused, rfl⟩ := FileTree.answers_eq_error_iff.mp isFault
        exact ⟨index, base, form, problem, least, refused, rfl⟩
      · cases failed
    · cases failed
  · rintro ⟨index, base, form, problem, least, refused, rfl⟩
    have isFault := (@FileTree.answers_eq_error_iff _ _ _ FileEntry.isFile _).mpr
      ⟨problem, refused, rfl⟩
    rw [findSome?_firstBelow_eq_some_iff.mpr ⟨index, base, form, least, rfl⟩]
    dsimp only
    rw [FileTree.isFile, isFault]

theorem find_eq_missing_iff {missing : MissingModule} :
    modules.find requester path = .ok (.missing missing) ↔
      (∀ base ∈ modules.searchBases (home? uri) path, ∀ form,
          ¬ modules.Stops path.parts base form) ∧
        missing = ⟨path,
          (modules.searchBases (home? uri) path).eraseDups.flatMap fun base =>
            [(ModuleForm.plain.file base path.parts).text,
              (ModuleForm.package.file base path.parts).text],
          requester⟩ := by
  rw [find_eq isUri wellFormed, ← findSome?_firstBelow_eq_none_iff]
  split
  · next place first => split <;> simp [first]
  · next none => simp [none, eq_comm]

end

theorem stops_iff_keeps {base : FilePath} {form : ModuleForm}
    (unrefused : ∀ problem,
      ¬ modules.tree.Refuses modules.current (form.file base parts) problem) :
    modules.Stops parts base form ↔ modules.Keeps parts base form := by
  rw [Stops, Keeps]
  cases answer : modules.tree.isFile modules.current (form.file base parts) with
  | error fault =>
      obtain ⟨problem, refused, _⟩ := FileTree.answers_eq_error_iff.mp answer
      exact absurd refused (unrefused problem)
  | ok isFile => cases isFile <;> simp

theorem isLeast_congr {sought other : FilePath → ModuleForm → Prop} {index : Nat}
    {base : FilePath} {form : ModuleForm}
    (same : ∀ base ∈ bases, ∀ form, sought base form ↔ other base form) :
    IsLeast sought bases index base form ↔ IsLeast other bases index base form := by
  have forth : ∀ {sought other : FilePath → ModuleForm → Prop},
      (∀ base ∈ bases, ∀ form, sought base form ↔ other base form) →
        IsLeast sought bases index base form → IsLeast other bases index base form := by
    intro sought other same least
    refine ⟨least.isBase, (same _ (List.mem_of_getElem? least.isBase) _).mp least.holds, ?_⟩
    intro otherIndex otherBase otherForm isBase holds
    exact least.least otherIndex otherBase otherForm isBase
      ((same _ (List.mem_of_getElem? isBase) _).mpr holds)
  exact ⟨forth same, forth fun base isBase form => (same base isBase form).symm⟩

/-- Whatever stands in the files, a module is searched for in the directory of the requesting
module, from where a relative path climbs, and for an absolute path in the package paths too, and
nowhere else. The search ends at the first file or at the first look that is refused, and all places
were looked at when there is neither. -/
theorem searches_in_order (modules : FileModules) (requester : String)
    (wellFormed : path.isWellFormed = true) :
    match Uri.split requester with
    | .error fault => modules.find requester path = .error (.identifier fault)
    | .ok uri =>
      modules.SearchesInOrder requester path (modules.searchBases (home? uri) path) := by
  cases isUri : Uri.split requester with
  | error fault => simp [find, directoryOf?, Uri.isFile, isUri, Except.map]
  | ok uri =>
      have missing_iff : (∃ missing, modules.find requester path = .ok (.missing missing)) ↔
          ∀ base ∈ modules.searchBases (home? uri) path, ∀ form,
            ¬ modules.Stops path.parts base form := by
        simp only [find_eq_missing_iff isUri wellFormed]
        exact ⟨fun isMissing => isMissing.choose_spec.1, fun nothing => ⟨_, nothing, rfl⟩⟩
      constructor
      case found_iff => exact fun _ => find_eq_found_iff isUri wellFormed
      case failed_iff => exact fun _ => find_eq_error_iff isUri wellFormed
      case missing_iff => exact missing_iff
      case findsFirst =>
        intro unrefused
        -- Without a refused look the places that stop a search are the files of the module.
        have same : ∀ base ∈ modules.searchBases (home? uri) path, ∀ form,
            modules.Stops path.parts base form ↔ modules.Keeps path.parts base form :=
          fun base isBase form => stops_iff_keeps (unrefused base isBase form)
        refine ⟨fun fault failed => ?_, fun found => ?_, ?_⟩
        · obtain ⟨_, base, form, problem, least, refused, _⟩ :=
            (find_eq_error_iff isUri wellFormed).mp failed
          exact unrefused base (List.mem_of_getElem? least.isBase) form problem refused
        · rw [find_eq_found_iff isUri wellFormed]
          simp only [isLeast_congr same]
          constructor
          · rintro ⟨index, base, form, least, _, isFound⟩
            exact ⟨index, base, form, least, isFound⟩
          · rintro ⟨index, base, form, least, isFound⟩
            exact ⟨index, base, form, least, least.holds, isFound⟩
        · rw [missing_iff]
          exact forall₃_congr fun base isBase form => not_congr (same base isBase form)
      case stored => exact fun _ _ _ => FileTree.find_resolve
      case looked =>
        intro missing isMissing
        obtain ⟨_, same⟩ := (find_eq_missing_iff isUri wellFormed).mp isMissing
        exact ⟨_, isDistinct_eraseDups _, same⟩
      case relative => exact fun relative => find_of_relative modules requester relative

/-! The entry of a directory beside the requesting module hides a file in a package path. -/

def shadowing : FileModules where
  tree :=
    { entries :=
        [(["app"], .directory), (["app", "main.mg"], .file []), (["app", "util"], .directory),
          (["app", "util", "mod.mg"], .file []), (["lib"], .directory),
          (["lib", "util.mg"], .file [])]
      locked := [] }
  current := ⟨.slash, []⟩
  packagePaths := [⟨.slash, ["lib"]⟩, ⟨.slash, ["app"]⟩]

theorem searches_in_order_shadowing :
    (ImportPath.mk 0 ["util"]).isWellFormed = true ∧
      shadowing.find "file:///app/main.mg" ⟨0, ["util"]⟩ =
        .ok (.found ⟨"file:///app/util/mod.mg", .stored ⟨.slash, ["app", "util", "mod.mg"]⟩⟩) ∧
      shadowing.SearchesInOrder "file:///app/main.mg" ⟨0, ["util"]⟩
        [⟨.slash, ["app"]⟩, ⟨.slash, ["lib"]⟩, ⟨.slash, ["app"]⟩] := by
  have wellFormed : (ImportPath.mk 0 ["util"]).isWellFormed = true := by decide
  have isUri : Uri.split "file:///app/main.mg" = .ok ⟨"file", "/app/main.mg".toList⟩ := by cbv
  have bases : shadowing.searchBases (home? ⟨"file", "/app/main.mg".toList⟩) ⟨0, ["util"]⟩ =
      [⟨.slash, ["app"]⟩, ⟨.slash, ["lib"]⟩, ⟨.slash, ["app"]⟩] := by cbv
  have searches := searches_in_order shadowing "file:///app/main.mg" wellFormed
  rw [isUri] at searches
  refine ⟨wellFormed, by cbv, ?_⟩
  rw [← bases]
  exact searches

/-! A module with a name that no file and no directory can have. -/

def nameOf (letters : Nat) : String := String.ofList (List.replicate letters 'a')

section

variable {letters : Nat}

theorem isIdentifier_nameOf (some : letters ≠ 0) : Lexeme.isIdentifier (nameOf letters) = true := by
  rw [Lexeme.isIdentifier_iff, nameOf, String.toList_ofList, List.all_replicate, if_neg some]
  obtain ⟨fewer, rfl⟩ := Nat.exists_eq_succ_of_ne_zero some
  exact ⟨rfl, rfl⟩

theorem utf8ByteSize_nameOf : (nameOf letters).utf8ByteSize = letters := by
  rw [nameOf, String.utf8ByteSize_ofList]
  induction letters with
  | zero => rfl
  | succ letters induction =>
      rw [List.replicate_succ, String.utf8Len_cons, induction]
      rfl

variable (long : FileTree.longestName < letters)
include long

theorem longestName_lt : FileTree.longestName < (nameOf letters ++ ".mg").utf8ByteSize := by
  rw [String.utf8ByteSize_append, utf8ByteSize_nameOf]
  omega

theorem not_keeps_nameOf (modules : FileModules) (base : FilePath) (form : ModuleForm) :
    ¬ modules.Keeps [nameOf letters] base form := by
  intro kept
  obtain ⟨_, content, seen⟩ := FileTree.isFile_eq_true_iff.mp kept
  cases form with
  | plain =>
      exact FileTree.look_ne_ok (longestName_lt long) (List.mem_append_right _ (by simp)) seen
  | package =>
      rw [← @utf8ByteSize_nameOf letters] at long
      exact FileTree.look_ne_ok long (List.mem_append_right _ (by simp)) seen

theorem refuses_nameOf : shadowing.tree.Refuses shadowing.current
    (ModuleForm.plain.file ⟨.slash, ["app"]⟩ [nameOf letters]) .nameTooLong := by
  have some : letters ≠ 0 := Nat.ne_zero_of_lt long
  let name : DottedName := ⟨[nameOf letters], List.cons_ne_nil _ _, by
    simpa using isIdentifier_nameOf some⟩
  have plain : FilePath.IsPlain ⟨.slash, ["app"]⟩ := by
    intro part member
    rw [List.mem_singleton.mp member]
    exact Lexeme.isPlainText_of_isIdentifier (by decide)
  have tooLong := longestName_lt long
  have notAbove : nameOf letters ++ ".mg" ≠ ".." := by
    intro same
    rw [same] at tooLong
    exact absurd tooLong (by decide)
  have walked : shadowing.tree.walk ["app"] [nameOf letters ++ ".mg"] = .error .nameTooLong := by
    simp [FileTree.walk, FileTree.entry?, shadowing, notAbove, tooLong, -String.utf8ByteSize_append]
  refine ⟨name.hasNull_file plain, ?_, .inr rfl⟩
  rw [FileTree.look]
  split
  · rfl
  · have parts : (shadowing.current.join
        (ModuleForm.plain.file ⟨.slash, ["app"]⟩ [nameOf letters])).parts =
          ["app"] ++ [nameOf letters ++ ".mg"] := rfl
    rw [FileTree.find, parts, FileTree.walk_append,
      show shadowing.tree.walk [] ["app"] = .ok ["app"] by decide]
    simp only [Except.bind, walked]

end

/-- There is no file of this module, and still the search does not come to the end of the places. -/
theorem exists_refusal_of_longName :
    (ImportPath.mk 0 [nameOf 256]).isWellFormed = true ∧
      shadowing.find "file:///app/main.mg" ⟨0, [nameOf 256]⟩ =
        .error (.file (.refused .nameTooLong ⟨.slash, ["app", nameOf 256 ++ ".mg"]⟩)) ∧
      (∀ base form, ¬ shadowing.Keeps [nameOf 256] base form) ∧
      ¬ shadowing.FindsFirst "file:///app/main.mg" ⟨0, [nameOf 256]⟩
        [⟨.slash, ["app"]⟩, ⟨.slash, ["lib"]⟩, ⟨.slash, ["app"]⟩] := by
  have long : FileTree.longestName < 256 := by decide
  have wellFormed : (ImportPath.mk 0 [nameOf 256]).isWellFormed = true := by
    simpa [ImportPath.isWellFormed_iff] using @isIdentifier_nameOf 256 (by decide)
  have isUri : Uri.split "file:///app/main.mg" = .ok ⟨"file", "/app/main.mg".toList⟩ := by cbv
  have home : home? ⟨"file", "/app/main.mg".toList⟩ = some ⟨.slash, ["app"]⟩ := by cbv
  have stops : shadowing.Stops [nameOf 256] ⟨.slash, ["app"]⟩ .plain := by
    have answer := (@FileTree.answers_eq_error_iff _ _ _ FileEntry.isFile _).mpr
      ⟨_, refuses_nameOf long, rfl⟩
    rw [Stops, FileTree.isFile, answer]
    intro absent
    cases absent
  have failed : shadowing.find "file:///app/main.mg" ⟨0, [nameOf 256]⟩ =
      .error (.file (.refused .nameTooLong ⟨.slash, ["app", nameOf 256 ++ ".mg"]⟩)) := by
    refine (find_eq_error_iff isUri wellFormed).mpr
      ⟨0, ⟨.slash, ["app"]⟩, .plain, .nameTooLong, ⟨by rw [home]; rfl, stops, ?_⟩,
        refuses_nameOf long, rfl⟩
    intro otherIndex _ otherForm _ _
    rcases Nat.eq_zero_or_pos otherIndex with rfl | later
    · exact .inr ⟨rfl, Nat.zero_le _⟩
    · exact .inl later
  exact ⟨wellFormed, failed, fun base form => not_keeps_nameOf long shadowing base form,
    fun finds => finds.returns _ failed⟩

end FileModules

end ServiceModules
