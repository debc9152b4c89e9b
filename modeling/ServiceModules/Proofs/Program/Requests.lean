import ServiceModules.Proofs.Distinct
import ServiceModules.Proofs.Program.Sites

/-!
The requests of a program, told path by path. There is one request for every path, in the order in
which the paths first appear, and it holds the symbols of all statements with this path.
-/

namespace ServiceModules

section

variable {α κ : Type} [DecidableEq κ]

theorem upsert_map {key : α → κ} {name : κ} {new : α} {update : α → α} {value : κ → α}
    (keyed : ∀ name, key (value name) = name) {names : List κ} (distinct : names.Nodup) :
    upsert key name new update (names.map value) =
      if name ∈ names then
        names.map fun other => if other = name then update (value other) else value other
      else names.map value ++ [new] := by
  induction names with
  | nil => rfl
  | cons first rest induction =>
      rw [List.nodup_cons] at distinct
      rw [List.map_cons, upsert, keyed, induction distinct.2]
      by_cases same : first = name
      · subst same
        have others : (rest.map fun other => if other = first then update (value other)
            else value other) = rest.map value := by
          apply List.map_congr_left
          intro other member
          have apart : other ≠ first := fun same => distinct.1 (same ▸ member)
          rw [if_neg apart]
        rw [if_pos rfl, if_pos (List.mem_cons_self ..), List.map_cons, if_pos rfl, others]
      · rw [if_neg same]
        by_cases member : name ∈ rest
        · rw [if_pos member, if_pos (List.mem_cons_of_mem _ member), List.map_cons, if_neg same]
        · have missing : name ∉ first :: rest := by simp [Ne.symm same, member]
          rw [if_neg member, if_neg missing, List.cons_append]

end

namespace ImportRequest

/-- The request for a path that the statements with this path make up. -/
def ofStatements (usages : String → List Location) (uri : String)
    (statements : List ImportStatement) (path : ImportPath) : ImportRequest :=
  let mine := statements.filter fun statement => statement.path = path
  { path := path
    symbols := mine.flatMap (ImportStatement.symbols usages uri)
    location := mine.head?.map fun statement => .ofSpan uri statement.pathSpan
    target := none }

variable {usages : String → List Location} {uri : String} {statements : List ImportStatement}
  {statement : ImportStatement} {path : ImportPath}

theorem ofStatements_append_of_ne (other : path ≠ statement.path) :
    ofStatements usages uri (statements ++ [statement]) path =
      ofStatements usages uri statements path := by
  have none : ([statement].filter fun statement => statement.path = path) = [] := by
    simp [Ne.symm other]
  simp only [ofStatements, List.filter_append, none, List.append_nil]

theorem ofStatements_append_of_mem (member : statement.path ∈ statements.map ImportStatement.path) :
    ofStatements usages uri (statements ++ [statement]) statement.path =
      { ofStatements usages uri statements statement.path with
        symbols := (ofStatements usages uri statements statement.path).symbols ++
          statement.symbols usages uri } := by
  rcases List.mem_map.mp member with ⟨earlier, earlierMember, same⟩
  have found : earlier ∈ statements.filter fun other => other.path = statement.path :=
    List.mem_filter.mpr ⟨earlierMember, decide_eq_true same⟩
  cases mine : statements.filter fun other => other.path = statement.path with
  | nil =>
      rw [mine] at found
      cases found
  | cons first rest => simp [ofStatements, List.filter_append, mine]

theorem ofStatements_append_of_not_mem
    (new : statement.path ∉ statements.map ImportStatement.path) :
    ofStatements usages uri (statements ++ [statement]) statement.path =
      ⟨statement.path, statement.symbols usages uri, some (.ofSpan uri statement.pathSpan),
        none⟩ := by
  have none : (statements.filter fun other => other.path = statement.path) = [] := by
    rw [List.filter_eq_nil_iff]
    intro other member same
    exact new (List.mem_map.mpr ⟨other, member, of_decide_eq_true same⟩)
  simp [ofStatements, List.filter_append, none]

theorem exists_location_ofStatements (member : path ∈ statements.map ImportStatement.path) :
    ∃ statement ∈ statements, statement.path = path ∧
      (ofStatements usages uri statements path).location =
        some (.ofSpan uri statement.pathSpan) := by
  rcases List.mem_map.mp member with ⟨some, someMember, same⟩
  have found : some ∈ statements.filter fun statement => statement.path = path :=
    List.mem_filter.mpr ⟨someMember, decide_eq_true same⟩
  cases mine : statements.filter fun statement => statement.path = path with
  | nil =>
      rw [mine] at found
      cases found
  | cons first rest =>
      have firstMember : first ∈ statements.filter fun statement => statement.path = path :=
        mine ▸ List.mem_cons_self ..
      rcases List.mem_filter.mp firstMember with ⟨inside, own⟩
      exact ⟨first, inside, of_decide_eq_true own, by simp [ofStatements, mine]⟩

/-- Inserting statements one after the other makes one request for every path. -/
theorem foldl_insert_eq (usages : String → List Location) (uri : String)
    (statements : List ImportStatement) :
    statements.foldl (fun requests statement => insert usages uri statement requests) [] =
      (statements.map ImportStatement.path).eraseDups.map (ofStatements usages uri statements) := by
  induction statements using List.reverseRecOn with
  | nil => rfl
  | append_singleton statements statement induction =>
      rw [List.foldl_append, List.foldl_cons, List.foldl_nil, induction, insert_eq_upsert,
        upsert_map (fun _ => rfl) (nodup_eraseDups _), List.map_append, List.map_singleton,
        eraseDups_append_singleton]
      simp only [List.mem_eraseDups]
      split
      · next member =>
        apply List.map_congr_left
        intro path _
        split
        · next same => rw [same, ofStatements_append_of_mem member]
        · next other => rw [ofStatements_append_of_ne other]
      · next new =>
        rw [List.map_append, List.map_singleton, ofStatements_append_of_not_mem new]
        congr 1
        apply List.map_congr_left
        intro path member
        have other : path ≠ statement.path := by
          rintro rfl
          exact new (List.mem_eraseDups.mp member)
        rw [ofStatements_append_of_ne other]

end ImportRequest

namespace Program

def paths (program : Program) : List ImportPath :=
  (program.imports.map ImportStatement.path).eraseDups

theorem nodup_paths (program : Program) : program.paths.Nodup := nodup_eraseDups _

def request (program : Program) (uri : String) (path : ImportPath) : ImportRequest :=
  .ofStatements (program.usages uri) uri program.imports path

theorem requests_eq (program : Program) (uri : String) :
    program.requests uri = program.paths.map (program.request uri) :=
  ImportRequest.foldl_insert_eq ..

end Program

end ServiceModules
