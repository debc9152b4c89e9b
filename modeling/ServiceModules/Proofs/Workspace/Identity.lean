import ServiceModules.Proofs.Files.Resolve
import ServiceModules.Proofs.Files.Walk
import ServiceModules.Proofs.Module.Unbound
import ServiceModules.Proofs.Uri.Plain
import ServiceModules.Workspace

/-!
Identities of files. A file has one identifier in all spellings of its path and in all directories,
and no other file has it, whatever characters the path has. So a file is one module, whether it is
read as a root or found by an import.
-/

namespace ServiceModules

variable {current path : FilePath}

/-! ## Locations -/

/-- A location that is a path: it is no identifier, and a file can have it for its name. -/
structure IsFileLocation (location : String) : Prop where
  isPath : ¬ [':', '/', '/'] <:+: location.toList
  noNull : '\x00' ∉ location.toList

namespace Uri

theorem isIdentifier_iff {text : List Char} :
    isIdentifier text = true ↔ [':', '/', '/'] <:+: text := by
  induction text with
  | nil => simp [isIdentifier]
  | cons character rest induction =>
      rw [isIdentifier, Bool.or_eq_true, induction, List.isPrefixOf_iff_prefix,
        List.infix_cons_iff]

theorem isIdentifier_ofPath (path : FilePath) : isIdentifier (ofPath path).toList = true := by
  rw [isIdentifier_iff, ofPath, String.toList_append]
  exact ⟨['f', 'i', 'l', 'e'], _, rfl⟩

theorem ofLocation_ofPath (current path : FilePath) :
    ofLocation current (ofPath path) = .ok (ofPath path) := by
  rw [ofLocation, if_pos (isIdentifier_ofPath path)]

theorem ofFile_of_noNull {text : String} (noNull : '\x00' ∉ text.toList) (current : FilePath) :
    ofFile current (.ofText text) = .ok (ofPath (current.resolve (.ofText text))) := by
  rw [ofFile, FilePath.hasNull_ofText noNull]
  rfl

theorem ofLocation_of_isFileLocation {location : String} (isFileLocation : IsFileLocation location)
    (current : FilePath) :
    ofLocation current location = .ok (ofPath (current.resolve (.ofText location))) := by
  rw [ofLocation, if_neg (mt isIdentifier_iff.mp isFileLocation.isPath),
    ofFile_of_noNull isFileLocation.noNull]

theorem ofPath_inj (canonical : current.IsCanonical) (canonicalPath : path.IsCanonical) :
    ofPath current = ofPath path ↔ current = path := by
  constructor
  · intro same
    have read := toPath_ofPath canonical
    rw [same, toPath_ofPath canonicalPath] at read
    exact (Except.ok.inj read).symm
  · exact congrArg ofPath

end Uri

/-! ## Roots -/

namespace Workspace

variable {workspace : Workspace} {configuration : Configuration} {parsed : ParsedModules}

theorem uri_of_parseAt {finder : Finder} {uri : String} {content : Content}
    (isParsed : (workspace.parseAt finder configuration uri content).1 = some (.ok parsed)) :
    parsed.root.uri = uri := by
  rw [parseAt] at isParsed
  split at isParsed
  · cases isParsed
  · next module read =>
    dsimp only at isParsed
    split at isParsed
    · cases isParsed
    · cases isParsed
    · split at isParsed
      · cases isParsed
      · cases isParsed
        rw [Module.ofContent] at read
        split at read
        · cases read
        · exact Module.uri_of_ofBytes_eq_ok read

theorem ofLocation_of_parse {content : Content} {base : String}
    (isParsed : (workspace.parse configuration content base).1 = some (.ok parsed)) :
    Uri.ofLocation workspace.current base = .ok parsed.root.uri := by
  rw [parse] at isParsed
  split at isParsed
  · cases isParsed
  · cases isParsed
  · next uri _ located => rw [located, uri_of_parseAt isParsed]

theorem ofFile_of_parseFile {path : String}
    (isParsed : (workspace.parseFile configuration path).1 = some (.ok parsed)) :
    Uri.ofFile workspace.current (.ofText path) = .ok parsed.root.uri := by
  rw [parseFile] at isParsed
  split at isParsed
  · cases isParsed
  · split at isParsed
    · cases isParsed
    · cases isParsed
    · next uri _ located => rw [located, uri_of_parseAt isParsed]

end Workspace

/-! ## Identities -/

/-- The identifier is the identity of the file at an absolute path: it leads back to the file, it
is its own identifier, and whatever names a file has this identifier just when it names this one. -/
structure IsIdentityOf (uri : String) (file : FilePath) : Prop where
  isFile : Uri.isFile uri = .ok true
  toPath : Uri.toPath uri = .ok file
  again : ∀ current, Uri.ofLocation current uri = .ok uri
  /-- Two locations have one identifier just when they resolve to one path. -/
  location_iff : ∀ {current location}, current.IsCanonical → IsFileLocation location →
    (Uri.ofLocation current location = .ok uri ↔ current.resolve (.ofText location) = file)
  source_iff : ∀ {current spelling}, current.IsCanonical → '\x00' ∉ spelling.toList →
    ((FileModules.source current (.ofText spelling)).uri = uri ↔
      current.resolve (.ofText spelling) = file)
  /-- Every import that leads to the file, from whatever module and through whatever directory. -/
  found_iff : ∀ {modules : FileModules} {packagePaths : List String} {requester path found},
    modules.current.IsCanonical →
    FileModules.resolvePackagePaths modules.current (packagePaths.map .ofText) =
      .ok modules.packagePaths →
    modules.find requester path = .ok (.found found) →
      ∃ place, found.place = .stored place ∧
        (∃ content, modules.tree.find modules.current place = .ok (.file content)) ∧
        (found.uri = uri ↔ place = file)
  parsed_iff : ∀ {workspace : Workspace} {configuration content base parsed},
    workspace.current.IsCanonical → ¬ [':', '/', '/'] <:+: base.toList →
    (workspace.parse configuration content base).1 = some (.ok parsed) →
      (parsed.root.uri = uri ↔ workspace.current.resolve (.ofText base) = file)
  parsedFile_iff : ∀ {workspace : Workspace} {configuration path parsed},
    workspace.current.IsCanonical →
    (workspace.parseFile configuration path).1 = some (.ok parsed) →
      (parsed.root.uri = uri ↔ workspace.current.resolve (.ofText path) = file)

theorem FilePath.isCanonical_resolve_ofText (canonical : current.IsCanonical) (text : String) :
    (current.resolve (.ofText text)).IsCanonical :=
  (isSpelled_ofText text).isCanonical_resolve canonical

theorem FileModules.isSpelled_of_resolvePackagePaths {texts : List String}
    {packagePaths : List FilePath} (canonical : current.IsCanonical)
    (resolved : resolvePackagePaths current (texts.map .ofText) = .ok packagePaths) :
    ∀ directory ∈ packagePaths, directory.IsSpelled := by
  rw [resolvePackagePaths] at resolved
  split at resolved
  · cases resolved
  · cases resolved
    intro directory member
    simp only [List.map_map, List.mem_map, Function.comp_apply] at member
    rcases member with ⟨text, _, rfl⟩
    exact (FilePath.isCanonical_resolve_ofText canonical text).isSpelled

theorem isIdentityOf_ofPath (canonical : path.IsCanonical) :
    IsIdentityOf (Uri.ofPath path) path where
  isFile := Uri.isFile_ofPath canonical
  toPath := Uri.toPath_ofPath canonical
  again := fun current => Uri.ofLocation_ofPath current path
  location_iff := by
    intro current location isCurrent isFileLocation
    rw [Uri.ofLocation_of_isFileLocation isFileLocation, Except.ok.injEq,
      Uri.ofPath_inj (FilePath.isCanonical_resolve_ofText isCurrent location) canonical]
  source_iff := by
    intro current spelling isCurrent _
    exact Uri.ofPath_inj (FilePath.isCanonical_resolve_ofText isCurrent spelling) canonical
  found_iff := by
    intro modules texts requester path found isCurrent resolved isFound
    have spelled := FileModules.isSpelled_of_resolvePackagePaths isCurrent resolved
    obtain ⟨place, isSpelled, isFile, rfl⟩ := FileModules.exists_place_of_find spelled isFound
    obtain ⟨_, content, seen⟩ := FileTree.isFile_eq_true_iff.mp isFile
    exact ⟨_, rfl, ⟨content, FileTree.find_resolve (FileTree.find_of_look seen)⟩,
      Uri.ofPath_inj (isSpelled.isCanonical_resolve isCurrent) canonical⟩
  parsed_iff := by
    intro workspace configuration content base parsed isCurrent isPath isParsed
    have located := Workspace.ofLocation_of_parse isParsed
    rw [Uri.ofLocation, if_neg (mt Uri.isIdentifier_iff.mp isPath), Uri.ofFile] at located
    split at located
    · cases located
    · rw [← Except.ok.inj located,
        Uri.ofPath_inj (FilePath.isCanonical_resolve_ofText isCurrent base) canonical]
  parsedFile_iff := by
    intro workspace configuration path parsed isCurrent isParsed
    have located := Workspace.ofFile_of_parseFile isParsed
    rw [Uri.ofFile] at located
    split at located
    · cases located
    · rw [← Except.ok.inj located,
        Uri.ofPath_inj (FilePath.isCanonical_resolve_ofText isCurrent path) canonical]

/-- Every location that is a path has an identifier, which is the identity of the file that the
path resolves to. -/
theorem exists_identity_of_location {location : String} (canonical : current.IsCanonical)
    (isFileLocation : IsFileLocation location) :
    ∃ uri, Uri.ofLocation current location = .ok uri ∧
      IsIdentityOf uri (current.resolve (.ofText location)) :=
  ⟨_, Uri.ofLocation_of_isFileLocation isFileLocation current,
    isIdentityOf_ofPath (FilePath.isCanonical_resolve_ofText canonical location)⟩

/-! A name with an escape sequence, delimiters and a line break, below a directory that is left
again, and a letter beyond ASCII. -/

theorem exists_identity_of_location_escaped :
    FilePath.IsCanonical ⟨.slash, ["srv", "a b"]⟩ ∧
      IsFileLocation "../x%41#?;\n//y/.././ä%.mg" ∧
      IsIdentityOf "file:///srv/x%2541%23%3F%3B%0A/%C3%A4%25.mg"
        ⟨.slash, ["srv", "x%41#?;\n", "ä%.mg"]⟩ := by
  have canonical : FilePath.IsCanonical ⟨.slash, ["srv", "a b"]⟩ := by
    refine ⟨rfl, fun name member => ?_⟩
    simp only [List.mem_cons, List.not_mem_nil, or_false] at member
    rcases member with rfl | rfl
    · exact ⟨by decide, by decide, by decide⟩
    · exact ⟨by decide, by decide, by decide⟩
  have isFileLocation : IsFileLocation "../x%41#?;\n//y/.././ä%.mg" := by
    refine ⟨fun isIdentifier => ?_, by decide⟩
    exact absurd (Uri.isIdentifier_iff.mpr isIdentifier) (by decide)
  refine ⟨canonical, isFileLocation, ?_⟩
  obtain ⟨uri, located, identity⟩ := exists_identity_of_location canonical isFileLocation
  have resolved : FilePath.resolve ⟨.slash, ["srv", "a b"]⟩ (.ofText "../x%41#?;\n//y/.././ä%.mg") =
      ⟨.slash, ["srv", "x%41#?;\n", "ä%.mg"]⟩ := by cbv
  have isUri : Uri.ofPath ⟨.slash, ["srv", "x%41#?;\n", "ä%.mg"]⟩ =
      "file:///srv/x%2541%23%3F%3B%0A/%C3%A4%25.mg" := by decide
  rw [Uri.ofLocation_of_isFileLocation isFileLocation, resolved, isUri] at located
  rw [resolved, ← Except.ok.inj located] at identity
  exact identity

end ServiceModules
