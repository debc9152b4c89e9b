import ServiceModules.Proofs.Lookup.Name

/-!
Names, identifiers and paths in memory. A module is looked for under the name that the path stands
for in the name of the importing module, and what is found has just this name, so that a chain of
imports can be followed from name to name.
-/

namespace ServiceModules

def DottedName.textOf (parts : List String) : String :=
  String.ofList (Text.join '.' (parts.map String.toList))

namespace ImportPath

/-- The parts of the name that a path stands for in a module whose name has the given parts. With
more dots than there are parts it stands for none. -/
def sought? (path : ImportPath) (parts : List String) : Option (List String) :=
  if path.level = 0 then some path.parts
  else if path.level ≤ parts.length then
    some (parts.take (parts.length - path.level) ++ path.parts)
  else none

theorem sought?_of_absolute {path : ImportPath} (absolute : path.level = 0) (parts : List String) :
    path.sought? parts = some path.parts := by
  rw [sought?, if_pos absolute]

theorem sought?_of_relative {path : ImportPath} {parts : List String} (relative : 1 ≤ path.level)
    (bounded : path.level ≤ parts.length) :
    path.sought? parts = some (parts.take (parts.length - path.level) ++ path.parts) := by
  rw [sought?, if_neg (by omega), if_pos bounded]

theorem sought?_of_tooFar {path : ImportPath} {parts : List String}
    (tooFar : parts.length < path.level) : path.sought? parts = none := by
  rw [sought?, if_neg (by omega), if_neg (by omega)]

def soughtAlong? (parts : List String) : List ImportPath → Option (List String)
  | [] => some parts
  | path :: rest => (path.sought? parts).bind fun sought => soughtAlong? sought rest

theorem exists_name_of_sought? {path : ImportPath} (wellFormed : path.isWellFormed = true)
    {name : DottedName} {parts : List String} (sought : path.sought? name.parts = some parts) :
    ∃ target : DottedName, target.parts = parts := by
  obtain ⟨nonempty, identifiers⟩ := isWellFormed_iff.mp wellFormed
  rw [sought?] at sought
  split at sought
  · cases sought
    exact ⟨⟨path.parts, nonempty, identifiers⟩, rfl⟩
  · split at sought
    · cases sought
      refine ⟨⟨_, List.append_ne_nil_of_right_ne_nil _ nonempty, ?_⟩, rfl⟩
      intro part isPart
      rcases List.mem_append.mp isPart with isKept | isGiven
      · exact name.identifiers part (List.mem_of_mem_take isKept)
      · exact identifiers part isGiven
    · cases sought

end ImportPath

namespace MemoryModules

variable {modules : MemoryModules} {name : DottedName} {path : ImportPath}

theorem nameOf?_memoryUri (name : DottedName) (path : ImportPath) :
    nameOf? name.memoryUri path = .ok ((path.sought? name.parts).map DottedName.textOf) := by
  by_cases absolute : path.level = 0
  · have notRelative : ¬ path.isRelative = true := by simp [ImportPath.isRelative, absolute]
    rw [nameOf?, if_neg notRelative, ImportPath.sought?_of_absolute absolute]
    rfl
  · have isRelative : path.isRelative = true := by
      simp only [ImportPath.isRelative, decide_eq_true_eq]
      omega
    have positive : 0 < name.parts.length := List.length_pos_iff.mpr name.nonempty
    have packages : packages name.text = name.parts.dropLast.map String.toList := by
      rw [MemoryModules.packages, name.split_text, List.map_dropLast]
    have climbed : relativeName? name.text path =
        (path.sought? name.parts).map DottedName.textOf := by
      rw [relativeName?, packages, List.length_map, List.length_dropLast]
      by_cases bounded : path.level ≤ name.parts.length
      · have kept : name.parts.dropLast.take (name.parts.length - 1 - (path.level - 1)) =
            name.parts.take (name.parts.length - path.level) := by
          rw [List.dropLast_eq_take, List.take_take]
          congr 1
          omega
        rw [ImportPath.sought?_of_relative (by omega) bounded]
        dsimp only
        rw [if_pos (by omega), ← List.map_take, kept, ← List.map_append]
        rfl
      · rw [ImportPath.sought?_of_tooFar (by omega)]
        dsimp only
        rw [if_neg (by omega)]
        rfl
    rw [nameOf?, if_pos isRelative, name.moduleName?_memoryUri]
    show Except.ok (relativeName? name.text path) = _
    rw [climbed]

/-- A path is followed to the name with these parts: a listed one is found under its own identifier
with its content, and of another one this identifier is all that was looked at. A text that has no
bytes in the charset of the modules cannot be handed out. -/
structure Seeks (modules : MemoryModules) (requester : String) (path : ImportPath)
    (parts : List String) : Prop where
  listed : ∀ content bytes, modules.sources.lookup (DottedName.textOf parts) = some content →
    content.encode modules.charset = .ok bytes →
    modules.find requester path =
      .ok (.found ⟨Uri.ofModuleName (DottedName.textOf parts), .held bytes⟩)
  withoutBytes : ∀ content fault,
    modules.sources.lookup (DottedName.textOf parts) = some content →
    content.encode modules.charset = .error fault →
    modules.find requester path = .error (.charset fault)
  unlisted : modules.sources.lookup (DottedName.textOf parts) = none →
    modules.find requester path =
      .ok (.missing ⟨path, [Uri.ofModuleName (DottedName.textOf parts)], requester⟩)

theorem seeks_of_sought? (modules : MemoryModules) {parts : List String}
    (sought : path.sought? name.parts = some parts) :
    modules.Seeks name.memoryUri path parts := by
  have named := nameOf?_memoryUri name path
  rw [sought] at named
  constructor
  · intro content bytes listed encoded
    simp [find, named, listed, source, encoded, Except.map]
  · intro content fault listed encoded
    simp [find, named, listed, source, encoded, Except.map]
  · intro unlisted
    simp [find, named, unlisted]

theorem find_of_sought?_eq_none (modules : MemoryModules)
    (nowhere : path.sought? name.parts = none) :
    modules.find name.memoryUri path = .ok (.missing ⟨path, [], name.memoryUri⟩) := by
  have named := nameOf?_memoryUri name path
  rw [nowhere] at named
  simp [find, named]

theorem exists_of_find_eq_found {found : ModuleSource}
    (finds : modules.find name.memoryUri path = .ok (.found found)) :
    ∃ parts content, path.sought? name.parts = some parts ∧
      modules.sources.lookup (DottedName.textOf parts) = some content ∧
      found.uri = Uri.ofModuleName (DottedName.textOf parts) := by
  cases sought : path.sought? name.parts with
  | none =>
      rw [find_of_sought?_eq_none modules sought] at finds
      cases finds
  | some parts =>
      have seeks := seeks_of_sought? modules sought
      cases listed : modules.sources.lookup (DottedName.textOf parts) with
      | none =>
          rw [seeks.unlisted listed] at finds
          cases finds
      | some content =>
          cases encoded : content.encode modules.charset with
          | error fault =>
              rw [seeks.withoutBytes content fault listed encoded] at finds
              cases finds
          | ok bytes =>
              rw [seeks.listed content bytes listed encoded] at finds
              cases finds
              exact ⟨parts, content, rfl, listed, rfl⟩

/-! ## Chains of imports -/

/-- The module that a chain of paths leads to, each followed from the module that was found last. -/
def findAlong (modules : MemoryModules) (requester : String) : List ImportPath → Option String
  | [] => some requester
  | path :: rest =>
    match modules.find requester path with
    | .ok (.found source) => modules.findAlong source.uri rest
    | _ => none

/-- A chain that leads to a module follows the names: the module has the identifier of the name that
the paths stand for one after the other, and this name is listed. -/
theorem exists_reached (name : DottedName) (paths : List ImportPath)
    (wellFormed : ∀ path ∈ paths, path.isWellFormed = true) {uri : String}
    (found : modules.findAlong name.memoryUri paths = some uri) :
    ∃ reached : DottedName, uri = reached.memoryUri ∧
      ImportPath.soughtAlong? name.parts paths = some reached.parts ∧
      (paths ≠ [] → ∃ content, modules.sources.lookup reached.text = some content) := by
  induction paths generalizing name with
  | nil =>
      cases found
      exact ⟨name, rfl, rfl, fun nonempty => absurd rfl nonempty⟩
  | cons path rest induction =>
      rw [findAlong] at found
      split at found
      · next source finds =>
        obtain ⟨parts, content, sought, listed, isUri⟩ := exists_of_find_eq_found finds
        obtain ⟨target, isTarget⟩ := ImportPath.exists_name_of_sought?
          (wellFormed path (List.mem_cons_self ..)) sought
        cases isTarget
        rw [isUri] at found
        obtain ⟨reached, atEnd, along, isListed⟩ := induction target
          (fun other isRest => wellFormed other (List.mem_cons_of_mem _ isRest)) found
        refine ⟨reached, atEnd, ?_, fun _ => ?_⟩
        · rw [ImportPath.soughtAlong?, sought]
          exact along
        · cases rest with
          | cons _ _ => exact isListed (List.cons_ne_nil _ _)
          | nil =>
              have same : target.parts = reached.parts := Option.some.inj along
              rw [same] at listed
              exact ⟨content, listed⟩
      · cases found

/-! ## Names, identifiers and paths -/

theorem exists_encode_of_utf8 (content : Content) :
    ∃ bytes, content.encode "utf-8" = .ok bytes := by
  cases content with
  | bytes encoded => exact ⟨encoded, rfl⟩
  | text characters =>
      have noNull : Charset.hasNull "utf-8" = false := by decide
      have isUtf8 : Charset.ofName? "utf-8" = some .utf8 := by decide
      refine ⟨Utf8.encode characters.toList, ?_⟩
      simp [Content.encode, Charset.encodeNamed, noNull, isUtf8, Charset.encode, Except.mapError]

/-- Names, identifiers and paths fit together. -/
structure FitsTogether (modules : MemoryModules) : Prop where
  readBack : ∀ name : DottedName,
    Uri.moduleName? (Uri.ofModuleName name.text) = .ok (some name.text)
  apart : ∀ name other : DottedName, name.text ≠ other.text →
    Uri.ofModuleName name.text ≠ Uri.ofModuleName other.text
  absolute : ∀ (name : DottedName) path, path.level = 0 →
    modules.Seeks (Uri.ofModuleName name.text) path path.parts
  relative : ∀ (name : DottedName) path, 1 ≤ path.level → path.level ≤ name.parts.length →
    modules.Seeks (Uri.ofModuleName name.text) path
      (name.parts.take (name.parts.length - path.level) ++ path.parts)
  tooFar : ∀ (name : DottedName) path, name.parts.length < path.level →
    modules.find (Uri.ofModuleName name.text) path =
      .ok (.missing ⟨path, [], Uri.ofModuleName name.text⟩)
  /-- In UTF-8 every content can be handed out, and encoded content in any charset. -/
  encodable : ∀ content : Content,
    modules.charset = "utf-8" ∨ (∃ encoded, content = .bytes encoded) →
      ∃ bytes, content.encode modules.charset = .ok bytes
  /-- Every module along a chain of imports has the identifier of a listed name, so that its own
  relative imports are followed from this name. -/
  chains : ∀ (name : DottedName) paths, (∀ path ∈ paths, path.isWellFormed = true) →
    ∀ uri, modules.findAlong (Uri.ofModuleName name.text) paths = some uri →
      ∃ reached : DottedName, uri = Uri.ofModuleName reached.text ∧
        ImportPath.soughtAlong? name.parts paths = some reached.parts ∧
        (paths ≠ [] → ∃ content, modules.sources.lookup reached.text = some content)

/-- In memory, whatever the modules are, a path is followed from the name of the importing module to
the name that it stands for there, and identifiers tell names apart. -/
theorem names_fit_together (modules : MemoryModules) : modules.FitsTogether where
  readBack := DottedName.moduleName?_memoryUri
  apart := by
    intro name other different same
    have reads := name.moduleName?_memoryUri
    rw [DottedName.memoryUri, same, ← DottedName.memoryUri, other.moduleName?_memoryUri] at reads
    exact different (Option.some.inj (Except.ok.inj reads)).symm
  absolute := by
    intro name path absolute
    exact seeks_of_sought? modules (ImportPath.sought?_of_absolute absolute name.parts)
  relative := by
    intro name path relative bounded
    exact seeks_of_sought? modules (ImportPath.sought?_of_relative relative bounded)
  tooFar := by
    intro name path tooFar
    exact find_of_sought?_eq_none modules (ImportPath.sought?_of_tooFar tooFar)
  encodable := by
    intro content able
    rcases able with isUtf8 | ⟨encoded, isEncoded⟩
    · rw [isUtf8]
      exact exists_encode_of_utf8 content
    · rw [isEncoded]
      exact ⟨encoded, rfl⟩
  chains := by
    intro name paths wellFormed uri found
    exact exists_reached name paths wellFormed found

def accented : MemoryModules := ⟨[("m", .text ""), ("a", .text "é")], "ascii"⟩

/-- A text without bytes in the charset of the modules is listed and cannot be found. -/
theorem find_accented :
    accented.sources.lookup (DottedName.textOf ["a"]) = some (.text "é") ∧
      accented.find (Uri.ofModuleName "m") ⟨0, ["a"]⟩ =
        .error (.charset (.encode ⟨"ascii", 'é', 0, 1, SingleByte.ascii.reason⟩)) :=
  ⟨rfl, rfl⟩

end MemoryModules

end ServiceModules
