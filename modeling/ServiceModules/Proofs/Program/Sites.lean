import Mathlib.Data.List.Nodup
import ServiceModules.Proofs.Draft.Marks
import ServiceModules.Proofs.Draft.Undocumented
import ServiceModules.Proofs.Upsert

/-!
The places in a program that refer to imported names. The requests of a program hold every import
target once, whatever statements they come from. A place belongs to one target only: targets and
references begin at different places, and no two targets bind one local name.
-/

namespace ServiceModules

/-! ## Marks of whole programs -/

namespace Program

theorem targets_cons_importing (statement : ImportStatement) (rest : List Statement) :
    targets ⟨.importing statement :: rest⟩ = statement.targets ++ targets ⟨rest⟩ := rfl

theorem targets_cons_declaring (declaration : Declaration) (rest : List Statement) :
    targets ⟨.declaring declaration :: rest⟩ = targets ⟨rest⟩ := rfl

theorem marks_perm (program : Program) :
    (program.statements.flatMap Statement.marks).Perm
      (program.targets.map ImportTarget.mark ++
        (program.declarations.flatMap Declaration.references).map TypeReference.mark) := by
  rcases program with ⟨statements⟩
  induction statements with
  | nil => exact .refl _
  | cons statement rest induction =>
      cases statement with
      | importing statement =>
          rw [targets_cons_importing, List.map_append, List.append_assoc]
          exact induction.append_left _
      | declaring declaration =>
          rw [targets_cons_declaring]
          show (declaration.references.map TypeReference.mark ++
            rest.flatMap Statement.marks).Perm _
          have declared : declarations ⟨.declaring declaration :: rest⟩ =
              declaration :: declarations ⟨rest⟩ := rfl
          rw [declared, List.flatMap_cons, List.map_append]
          exact (induction.append_left _).trans (List.perm_append_comm_assoc ..)

theorem marks_withoutDocumentation (program : Program) :
    program.withoutDocumentation.statements.flatMap Statement.marks =
      program.statements.flatMap Statement.marks := by
  rw [withoutDocumentation, List.flatMap_map]
  have same : ∀ statement : Statement, statement.withoutDocumentation.marks = statement.marks := by
    intro statement
    cases statement with
    | importing statement => rfl
    | declaring declaration =>
        rw [Statement.withoutDocumentation, Statement.marks, Statement.marks,
          Declaration.references_withoutDocumentation]
  simp only [same]

/-- Targets and references begin at different places. -/
def HasDistinctMarks (program : Program) : Prop :=
  (program.targets.map ImportTarget.mark ++
    (program.declarations.flatMap Declaration.references).map TypeReference.mark).Nodup

theorem hasDistinctMarks_of_ofText {keepsDocumentation : Bool} {uri text : String}
    {program : Program} (read : ofText keepsDocumentation uri text = .ok program) :
    program.HasDistinctMarks := by
  rw [ofText_eq_parse] at read
  split at read
  · cases read
  · next parsedProgram parsed =>
    cases read
    have distinct := nodup_marks_of_parse parsed
    apply (marks_perm _).nodup_iff.mp
    cases keepsDocumentation with
    | true => exact distinct
    | false =>
        rw [if_neg Bool.false_ne_true, marks_withoutDocumentation]
        exact distinct

end Program

/-! ## Names -/

namespace Binding

theorem nodup_map_name_concat {earlier : List Binding} {binding : Binding}
    (distinct : (earlier.map name).Nodup)
    (missing : (earlier.find? fun previous => previous.name = binding.name) = none) :
    ((earlier ++ [binding]).map name).Nodup := by
  have fresh : binding.name ∉ earlier.map name := by
    intro member
    rcases List.mem_map.mp member with ⟨previous, previousMember, same⟩
    exact List.find?_eq_none.mp missing previous previousMember (decide_eq_true same)
  rw [List.map_append]
  exact List.Nodup.append distinct (List.nodup_singleton _) (List.disjoint_singleton.mpr fresh)

theorem nodup_of_clash?_eq_none {uri : String} {earlier bindings : List Binding}
    (distinct : (earlier.map name).Nodup) (clear : clash? uri earlier bindings = none) :
    ((earlier ++ bindings).map name).Nodup := by
  induction bindings generalizing earlier with
  | nil =>
      rw [List.append_nil]
      exact distinct
  | cons binding rest induction =>
      rw [clash?] at clear
      split at clear
      · cases clear
      · next missing =>
        have whole := induction (nodup_map_name_concat distinct missing) clear
        rw [List.append_assoc] at whole
        exact whole

end Binding

namespace Program

variable {program : Program} {uri : String}

theorem nodup_names_of_clash?_eq_none
    (clear : Binding.clash? uri [] program.bindings = none) :
    (program.declarations.map Declaration.name ++
      program.targets.map ImportTarget.localName).Nodup := by
  have noNames : (([] : List Binding).map Binding.name).Nodup := List.nodup_nil
  have distinct := Binding.nodup_of_clash?_eq_none noNames clear
  rw [List.nil_append, bindings, List.map_append, List.map_map, List.map_map] at distinct
  exact distinct

end Program

/-! ## Requests hold every target once -/

def ImportTarget.symbol (program : Program) (uri : String) (target : ImportTarget) :
    ImportedSymbol :=
  ⟨target.name, target.localName, some (.ofSpan uri target.span),
    program.usages uri target.localName⟩

theorem ImportRequest.insert_eq_upsert (usages : String → List Location) (uri : String)
    (statement : ImportStatement) (requests : List ImportRequest) :
    insert usages uri statement requests =
      upsert ImportRequest.path statement.path
        ⟨statement.path, statement.symbols usages uri, some (.ofSpan uri statement.pathSpan), none⟩
        (fun request =>
          { request with symbols := request.symbols ++ statement.symbols usages uri })
        requests := by
  induction requests with
  | nil => rfl
  | cons request rest induction => rw [insert, upsert, induction]

theorem ImportRequest.symbols_insert (usages : String → List Location) (uri : String)
    (statement : ImportStatement) (requests : List ImportRequest) :
    ((insert usages uri statement requests).flatMap symbols).Perm
      (requests.flatMap symbols ++ statement.symbols usages uri) := by
  rw [insert_eq_upsert]
  exact flatMap_upsert_perm rfl fun _ _ => .refl _

theorem Program.symbols_requests (program : Program) (uri : String) :
    ((program.requests uri).flatMap ImportRequest.symbols).Perm
      (program.targets.map (ImportTarget.symbol program uri)) := by
  suffices ∀ (statements : List ImportStatement) (requests : List ImportRequest),
      ((statements.foldl
        (fun requests statement => ImportRequest.insert (program.usages uri) uri statement requests)
        requests).flatMap ImportRequest.symbols).Perm
      (requests.flatMap ImportRequest.symbols ++
        (statements.flatMap ImportStatement.targets).map (ImportTarget.symbol program uri)) from
    this program.imports []
  intro statements
  induction statements with
  | nil =>
      intro requests
      rw [List.foldl_nil, List.flatMap_nil, List.map_nil, List.append_nil]
  | cons statement rest induction =>
      intro requests
      have inserted := ImportRequest.symbols_insert (program.usages uri) uri statement requests
      rw [List.foldl_cons, List.flatMap_cons, List.map_append, ← List.append_assoc]
      exact (induction _).trans (inserted.append_right _)

/-! ## Places -/

theorem nodup_map_of_nodup_map {α β γ : Type} {key : α → β} {value : α → γ} {items : List α}
    (determined : ∀ left right, value left = value right → key left = key right)
    (distinct : (items.map key).Nodup) : (items.map value).Nodup := by
  rw [List.Nodup, List.pairwise_map] at distinct ⊢
  exact distinct.imp fun different same => different (determined _ _ same)

namespace Program

variable {program : Program} {uri : String}

theorem mem_usages {name : String} {site : Location} :
    site ∈ program.usages uri name ↔ ∃ reference ∈ program.references,
      reference.name = name ∧ Location.ofSpan uri reference.span = site := by
  rw [usages, List.mem_map]
  constructor
  · rintro ⟨reference, member, same⟩
    rcases List.mem_filter.mp member with ⟨referenceMember, named⟩
    exact ⟨reference, referenceMember, of_decide_eq_true named, same⟩
  · rintro ⟨reference, member, named, same⟩
    exact ⟨reference, List.mem_filter.mpr ⟨member, decide_eq_true named⟩, same⟩

theorem HasDistinctMarks.nodup_references (apart : program.HasDistinctMarks) :
    (program.references.map TypeReference.mark).Nodup := by
  have within : program.references.Sublist
      (program.declarations.flatMap Declaration.references) := List.filter_sublist
  exact (within.map TypeReference.mark).nodup (List.nodup_append.mp apart).2.1

theorem HasDistinctMarks.ofSpan_ne (apart : program.HasDistinctMarks) {target : ImportTarget}
    (member : target ∈ program.targets) {reference : TypeReference}
    (referenceMember : reference ∈ program.references) :
    Location.ofSpan uri target.span ≠ Location.ofSpan uri reference.span := by
  intro same
  exact (List.nodup_append.mp apart).2.2 target.mark (List.mem_map_of_mem member) reference.mark
    (List.mem_map_of_mem (List.mem_of_mem_filter referenceMember))
    (Location.start_eq_of_ofSpan_eq same)

theorem HasDistinctMarks.nodup_symbol_sites (apart : program.HasDistinctMarks)
    {target : ImportTarget} (member : target ∈ program.targets) :
    (target.symbol program uri).sites.Nodup := by
  show (Location.ofSpan uri target.span :: program.usages uri target.localName).Nodup
  rw [List.nodup_cons]
  constructor
  · intro used
    rcases mem_usages.mp used with ⟨reference, referenceMember, _, same⟩
    exact apart.ofSpan_ne member referenceMember same.symm
  · have named : (program.references.filter fun reference =>
        reference.name = target.localName).Sublist program.references := List.filter_sublist
    exact nodup_map_of_nodup_map (fun left right => Location.start_eq_of_ofSpan_eq)
      ((named.map TypeReference.mark).nodup apart.nodup_references)

theorem HasDistinctMarks.mark_eq_or_localName_eq (apart : program.HasDistinctMarks)
    {left right : ImportTarget} (leftMember : left ∈ program.targets)
    (rightMember : right ∈ program.targets) {site : Location}
    (inLeft : site ∈ (left.symbol program uri).sites)
    (inRight : site ∈ (right.symbol program uri).sites) :
    left.mark = right.mark ∨ left.localName = right.localName := by
  rcases List.mem_cons.mp inLeft with atLeft | usesLeft
  · rcases List.mem_cons.mp inRight with atRight | usesRight
    · exact .inl (Location.start_eq_of_ofSpan_eq (atLeft.symm.trans atRight))
    · rcases mem_usages.mp usesRight with ⟨reference, member, _, same⟩
      exact absurd (atLeft.symm.trans same.symm) (apart.ofSpan_ne leftMember member)
  · rcases mem_usages.mp usesLeft with ⟨reference, member, named, same⟩
    rcases List.mem_cons.mp inRight with atRight | usesRight
    · exact absurd (atRight.symm.trans same.symm) (apart.ofSpan_ne rightMember member)
    · rcases mem_usages.mp usesRight with ⟨other, otherMember, otherNamed, otherSame⟩
      have equal : reference = other :=
        List.inj_on_of_nodup_map apart.nodup_references member otherMember
          (Location.start_eq_of_ofSpan_eq (same.trans otherSame.symm))
      rw [equal, otherNamed] at named
      exact .inr named.symm

theorem HasDistinctMarks.nodup_sites (apart : program.HasDistinctMarks)
    (localNames : (program.targets.map ImportTarget.localName).Nodup) :
    (program.targets.flatMap fun target => (target.symbol program uri).sites).Nodup := by
  have targetMarks := (List.nodup_append.mp apart).1
  rw [List.Nodup, List.pairwise_map] at targetMarks localNames
  rw [List.nodup_flatMap]
  refine ⟨fun target member => apart.nodup_symbol_sites member, ?_⟩
  apply List.Pairwise.imp_of_mem _ (targetMarks.and localNames)
  rintro left right leftMember rightMember ⟨differentMarks, differentNames⟩ site inLeft inRight
  rcases apart.mark_eq_or_localName_eq leftMember rightMember inLeft inRight with
    sameMark | sameName
  · exact differentMarks sameMark
  · exact differentNames sameName

end Program

end ServiceModules
