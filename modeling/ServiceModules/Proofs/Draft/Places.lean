import Mathlib
import ServiceModules.Proofs.Draft.Step
import ServiceModules.Proofs.Program.Places

/-!
Where the nodes of a draft stand. What a draft has finished stands in rows, and what it has begun
stands behind them: of every open declaration, record, field and operation the draft knows the
place at which its first token begins. A token that follows keeps this, so that it holds of whole
programs.
-/

namespace ServiceModules

/-! ## Rows that grow -/

variable (tokens : Tokens)

structure TypeReference.AllWithin (start here : Position) (references : List TypeReference) :
    Prop where
  row : Span.InRow start here (references.map TypeReference.span)
  nodes : AllFit tokens (references.map .ofReference)

structure Field.AllWithin (start here : Position) (fields : List Field) : Prop where
  row : Span.InRow start here (fields.map Field.span)
  nodes : AllFit tokens (Field.listNodes fields)

structure Operation.AllWithin (start here : Position) (operations : List Operation) : Prop where
  row : Span.InRow start here (operations.map Operation.span)
  nodes : AllFit tokens (DeclarationBody.interface operations).nodes

structure Statement.AllWithin (start here : Position) (statements : List Statement) : Prop where
  row : Span.InRow start here (statements.map Statement.span)
  nodes : AllFit tokens (statements.flatMap Statement.nodes)

/-- Something begins at the place with a token, and is not ended yet. -/
structure Position.IsOpen (position here : Position) : Prop where
  begins : position.BeginsToken tokens
  behind : position.AtMost here

structure Token.Follows (here : Position) (token : Token) : Prop where
  known : tokens token
  behind : here.AtMost token.span.start
  proper : token.span.start.Before token.span.stop

variable {tokens} {start here later : Position} {token : Token}

namespace Token.Follows

variable (follows : token.Follows tokens here)

include follows

theorem atMost_stop : here.AtMost token.span.stop := follows.behind.trans follows.proper.atMost

theorem span_fits : token.span.Fits tokens :=
  ⟨follows.proper, ⟨token, follows.known, rfl⟩, ⟨token, follows.known, rfl⟩⟩

theorem isOpen : token.span.start.IsOpen tokens token.span.stop :=
  ⟨⟨token, follows.known, rfl⟩, follows.proper.atMost⟩

theorem reference_fits : Node.Fits tokens (.ofReference (.ofToken token)) :=
  Node.fits_reference follows.span_fits ⟨token, follows.known, rfl⟩

end Token.Follows

namespace Position.IsOpen

variable {position : Position} (isOpen : position.IsOpen tokens here)

include isOpen

theorem mono (isLater : here.AtMost later) : position.IsOpen tokens later :=
  ⟨isOpen.begins, isOpen.behind.trans isLater⟩

theorem close (follows : token.Follows tokens here) :
    Span.Fits tokens ⟨position, token.span.stop⟩ :=
  ⟨(isOpen.behind.trans follows.behind).trans_before follows.proper, isOpen.begins,
    ⟨token, follows.known, rfl⟩⟩

end Position.IsOpen

namespace TypeReference.AllWithin

variable {references : List TypeReference}

theorem nil (isLater : start.AtMost here) : AllWithin tokens start here [] :=
  ⟨isLater, by rintro node ⟨⟩⟩

theorem mono (all : AllWithin tokens start here references) (isLater : here.AtMost later) :
    AllWithin tokens start later references :=
  ⟨all.row.widen isLater, all.nodes⟩

theorem add (all : AllWithin tokens start here references) (follows : token.Follows tokens here) :
    AllWithin tokens start token.span.stop (references ++ [.ofToken token]) where
  row := by
    rw [List.map_append]
    exact (all.row.widen follows.behind).concat follows.proper
  nodes := by
    rw [List.map_append]
    exact all.nodes.append (.cons follows.reference_fits (by rintro node ⟨⟩))

end TypeReference.AllWithin

/-! ## Import statements -/

variable (tokens) in
structure ImportClause.Fits (here : Position) (clause : ImportClause) : Prop where
  begins : clause.start.BeginsToken tokens
  path : ∃ token, tokens token ∧ clause.path = .ofText token.string ∧
    clause.pathSpan = token.span
  row : Span.InRow clause.start here
    (clause.pathSpan :: clause.targets.map ImportTarget.span)
  targets : AllFit tokens (clause.targets.map .ofTarget)

variable (tokens) in
def ImportFragment.Fits (here : Position) : ImportFragment → Prop
  | .afterFrom start => start.IsOpen tokens here
  | .afterPath start path span => ImportClause.Fits tokens here ⟨start, path, span, []⟩
  | .beforeTarget clause => clause.Fits tokens here
  | .afterTarget clause last | .afterAs clause last =>
    (clause.add last).Fits tokens here ∧ last.renamed = none
  | .afterRenaming clause last => (clause.add last).Fits tokens here

namespace ImportFragment

def outset : ImportFragment → Position
  | .afterFrom start => start
  | .afterPath start _ _ => start
  | .beforeTarget clause => clause.start
  | .afterTarget clause _ => clause.start
  | .afterAs clause _ => clause.start
  | .afterRenaming clause _ => clause.start

end ImportFragment

namespace ImportClause.Fits

variable {clause : ImportClause} {last : ImportTarget}

theorem mono (fits : clause.Fits tokens here) (isLater : here.AtMost later) :
    clause.Fits tokens later :=
  { fits with row := fits.row.widen isLater }

theorem row_add (fits : (clause.add last).Fits tokens here) :
    Span.InRow clause.start here
      ((clause.pathSpan :: clause.targets.map ImportTarget.span) ++ [last.span]) := by
  have row := fits.row
  rw [add, List.map_append] at row
  exact row

theorem last_fits (fits : (clause.add last).Fits tokens here) :
    Node.Fits tokens (.ofTarget last) :=
  fits.targets _ (List.mem_map_of_mem (List.mem_append_right _ (List.mem_singleton_self last)))

theorem target (fits : clause.Fits tokens here) (follows : token.Follows tokens here) :
    (clause.add ⟨token.string, none, token.span⟩).Fits tokens token.span.stop where
  begins := fits.begins
  path := fits.path
  row := by
    rw [add, List.map_append]
    exact (fits.row.widen follows.behind).concat follows.proper
  targets := by
    rw [add, List.map_append]
    refine fits.targets.append (.cons ?_ (by rintro node ⟨⟩))
    exact Node.fits_target follows.span_fits ⟨token, follows.known, rfl, rfl⟩

theorem rename (fits : (clause.add last).Fits tokens here) (plain : last.renamed = none)
    (follows : token.Follows tokens here) :
    (clause.add { last with
      renamed := some token.string, span := last.span.upTo token.span }).Fits tokens
        token.span.stop := by
  have lastFits := fits.last_fits
  have lastSpan := lastFits.span last.span rfl
  have lastWithin := fits.row_add.within (List.mem_append_right _ (List.mem_singleton_self _))
  have proper : last.span.start.Before token.span.stop :=
    (lastSpan.proper.trans_atMost lastWithin.2.2).trans_atMost follows.atMost_stop
  refine ⟨fits.begins, fits.path, ?_, ?_⟩
  · rw [add, List.map_append]
    exact fits.row_add.stretch proper
  · rw [add, List.map_append]
    refine AllFit.append ?_ (.cons ?_ (by rintro node ⟨⟩))
    · intro node member
      apply fits.targets
      rw [add, List.map_append]
      exact List.mem_append_left _ member
    · rcases lastFits.names with ⟨first, known, named, whole⟩
      rw [plain] at whole
      have whole : last.span = first.span := whole
      refine Node.fits_target ⟨proper, lastSpan.begins, ⟨token, follows.known, rfl⟩⟩
        ⟨first, known, named, token, follows.known, rfl, ?_, ?_⟩
      · rw [← whole]
        exact lastWithin.2.2.trans follows.behind
      · rw [whole]

theorem statement (fits : (clause.add last).Fits tokens here) :
    AllFit tokens (Statement.importing (clause.statement last)).nodes := by
  have lastSpan := fits.last_fits.span last.span rfl
  have lastWithin := fits.row_add.within (List.mem_append_right _ (List.mem_singleton_self _))
  have fitsSpan : Span.Fits tokens ⟨clause.start, last.span.stop⟩ :=
    ⟨lastWithin.1.trans_before lastSpan.proper, fits.begins, lastSpan.ends⟩
  refine AllFit.cons (Node.fits_import fitsSpan ⟨fits.path, ?_⟩) fits.targets
  have closed := fits.row_add.close
  rw [ImportClause.statement, List.map_append]
  exact closed

end ImportClause.Fits

theorem ImportFragment.Fits.extend {fragment extended : ImportFragment}
    (fits : fragment.Fits tokens here) (follows : token.Follows tokens here)
    (step : fragment.extend token = some extended) :
    extended.Fits tokens token.span.stop ∧ extended.outset = fragment.outset := by
  unfold ImportFragment.extend at step
  split at step
  · cases step
    refine ⟨⟨fits.begins, ⟨token, follows.known, rfl, rfl⟩, ?_, by rintro node ⟨⟩⟩, rfl⟩
    exact .single (fits.behind.trans follows.behind) follows.proper (.refl _)
  · cases step
    exact ⟨ImportClause.Fits.mono fits follows.atMost_stop, rfl⟩
  · cases step
    exact ⟨⟨ImportClause.Fits.target fits follows, rfl⟩, rfl⟩
  · cases step
    exact ⟨⟨fits.1.mono follows.atMost_stop, fits.2⟩, rfl⟩
  · cases step
    exact ⟨fits.1.mono follows.atMost_stop, rfl⟩
  · cases step
    exact ⟨fits.1.rename fits.2 follows, rfl⟩
  · cases step
    exact ⟨ImportClause.Fits.mono fits follows.atMost_stop, rfl⟩
  · cases step

/-! ## Records -/

theorem Field.fits_mk {name : String} {documentation : Option String} {type : TypeExpression}
    (begins : start.BeginsToken tokens) (behind : start.AtMost type.span.start)
    (fits : AllFit tokens type.nodes) :
    AllFit tokens (Field.mk name documentation type ⟨start, type.span.stop⟩).nodes := by
  have span := TypeExpression.span_fits fits
  rw [nodes]
  refine .cons (Node.fits_field ⟨behind.trans_before span.proper, begins, span.ends⟩ ?_) fits
  exact .single behind span.proper (.refl _)

theorem Field.listNodes_append (left right : List Field) :
    listNodes (left ++ right) = listNodes left ++ listNodes right := by
  simp only [listNodes_eq_flatMap, List.flatMap_append]

namespace Field.AllWithin

variable {fields : List Field}

theorem mono (all : AllWithin tokens start here fields) (isLater : here.AtMost later) :
    AllWithin tokens start later fields :=
  ⟨all.row.widen isLater, all.nodes⟩

theorem add {name : String} {documentation : Option String} {type : TypeExpression}
    (all : AllWithin tokens start here fields) (begins : here.BeginsToken tokens)
    (behind : here.AtMost type.span.start) (fits : AllFit tokens type.nodes) :
    AllWithin tokens start type.span.stop
      (fields ++ [.mk name documentation type ⟨here, type.span.stop⟩]) where
  row := by
    have span := TypeExpression.span_fits fits
    rw [List.map_append]
    have row : Span.InRow start (Span.mk here type.span.stop).start (fields.map Field.span) :=
      all.row
    exact row.concat (behind.trans_before span.proper)
  nodes := by
    rw [listNodes_append, listNodes, listNodes, List.append_nil]
    exact all.nodes.append (fits_mk begins behind fits)

theorem close (all : AllWithin tokens start here fields) (begins : start.BeginsToken tokens)
    (follows : token.Follows tokens here) :
    AllFit tokens (TypeExpression.record fields ⟨start, token.span.stop⟩).nodes := by
  have isOpen : start.IsOpen tokens here := ⟨begins, all.row.atMost⟩
  rw [TypeExpression.nodes]
  have row := all.row.widen follows.atMost_stop
  exact .cons (Node.fits_record (isOpen.close follows) row) all.nodes

end Field.AllWithin

variable (tokens) in
/-- The record is open, its fields so far stand in a row behind its brace, and so it is with every
record around it up to the field that the inner one is the type of. -/
def OpenRecord.Fits : Position → OpenRecord → Prop
  | here, .ofDeclaration declared start fields =>
    declared.start.IsOpen tokens start ∧ start.BeginsToken tokens ∧
      Field.AllWithin tokens start here fields
  | here, .ofField outer field start fields =>
    outer.Fits field.start ∧ field.start.IsOpen tokens start ∧ start.BeginsToken tokens ∧
      Field.AllWithin tokens start here fields

namespace OpenRecord

def outset : OpenRecord → Position
  | .ofDeclaration declared _ _ => declared.start
  | .ofField outer _ _ _ => outer.outset

theorem outset_addTyped (record : OpenRecord) (field : NamedHeading) (type : TypeExpression) :
    (record.addTyped field type).outset = record.outset := by
  cases record <;> rfl

variable {record : OpenRecord}

theorem Fits.mono (fits : record.Fits tokens here) (isLater : here.AtMost later) :
    record.Fits tokens later := by
  cases record with
  | ofDeclaration declared start fields => exact ⟨fits.1, fits.2.1, fits.2.2.mono isLater⟩
  | ofField outer field start fields =>
    exact ⟨fits.1, fits.2.1, fits.2.2.1, fits.2.2.2.mono isLater⟩

theorem Fits.addTyped {field : NamedHeading} (type : TypeExpression)
    (fits : record.Fits tokens field.start) (begins : field.start.BeginsToken tokens)
    (behind : field.start.AtMost type.span.start) (typeFits : AllFit tokens type.nodes) :
    (record.addTyped field type).Fits tokens type.span.stop := by
  cases record with
  | ofDeclaration declared start fields =>
    exact ⟨fits.1, fits.2.1, fits.2.2.add begins behind typeFits⟩
  | ofField outer owner start fields =>
    exact ⟨fits.1, fits.2.1, fits.2.2.1, fits.2.2.2.add begins behind typeFits⟩

end OpenRecord

variable (tokens) in
def RecordPlace.Fits (here : Position) (record : OpenRecord) : RecordPlace → Prop
  | .beforeField => record.Fits tokens here
  | .afterDocumentation documentation =>
    record.Fits tokens documentation.start ∧ documentation.start.IsOpen tokens here
  | .afterName field | .afterColon field =>
    record.Fits tokens field.start ∧ field.start.IsOpen tokens here

/-! ## Declarations -/

namespace NamedHeading

variable {declared : NamedHeading} {stop : Position}

theorem fits_declare {body : DeclarationBody} (span : Span.Fits tokens ⟨declared.start, stop⟩)
    (rows : ∀ row ∈ body.rows,
      Node.InRow declared.start stop row)
    (nodes : AllFit tokens body.nodes) :
    AllFit tokens (declared.declare body stop).nodes :=
  .cons (Node.fits_declaration span rows) nodes

theorem fits_declare_type (type : TypeExpression) (begins : declared.start.BeginsToken tokens)
    (behind : declared.start.AtMost type.span.start) (fits : AllFit tokens type.nodes) :
    AllFit tokens (declared.declare (.type type) type.span.stop).nodes := by
  have span := TypeExpression.span_fits fits
  refine fits_declare ⟨behind.trans_before span.proper, begins, span.ends⟩ ?_ fits
  intro row member
  rw [List.mem_singleton.mp member]
  exact Node.inRow_type (.single behind span.proper (.refl _))

end NamedHeading

namespace Operation.AllWithin

variable {operations : List Operation}

theorem mono (all : AllWithin tokens start here operations) (isLater : here.AtMost later) :
    AllWithin tokens start later operations :=
  ⟨all.row.widen isLater, all.nodes⟩

theorem add (operation : Operation) (all : AllWithin tokens start operation.span.start operations)
    (span : operation.span.Fits tokens)
    (references : TypeReference.AllWithin tokens operation.span.start operation.span.stop
      operation.references) :
    AllWithin tokens start operation.span.stop (operations ++ [operation]) where
  row := by
    rw [List.map_append]
    exact all.row.concat span.proper
  nodes := by
    rw [DeclarationBody.nodes, List.flatMap_append, List.flatMap_singleton]
    exact all.nodes.append
      (.cons (Node.fits_operation span references.row) references.nodes)

theorem close {declared : NamedHeading}
    (all : AllWithin tokens declared.start here operations)
    (begins : declared.start.BeginsToken tokens) (follows : token.Follows tokens here) :
    AllFit tokens (declared.declare (.interface operations) token.span.stop).nodes := by
  have isOpen : declared.start.IsOpen tokens here := ⟨begins, all.row.atMost⟩
  refine NamedHeading.fits_declare (isOpen.close follows) ?_ all.nodes
  intro row member
  rw [List.mem_singleton.mp member]
  exact Node.inRow_operations (all.row.widen follows.atMost_stop)

end Operation.AllWithin

variable (tokens) in
def NamedHeading.Requests (here : Position) (operation : NamedHeading)
    (request : Option TypeReference) : Prop :=
  operation.start.BeginsToken tokens ∧
    TypeReference.AllWithin tokens operation.start here request.toList

variable (tokens) in
def InterfacePlace.Fits (here : Position) (start : Position) (operations : List Operation) :
    InterfacePlace → Prop
  | .beforeOperation => Operation.AllWithin tokens start here operations
  | .afterDocumentation documentation =>
    Operation.AllWithin tokens start documentation.start operations ∧
      documentation.start.IsOpen tokens here
  | .afterName operation | .inRequest operation =>
    Operation.AllWithin tokens start operation.start operations ∧
      operation.start.IsOpen tokens here
  | .afterRequestType operation request =>
    Operation.AllWithin tokens start operation.start operations ∧
      operation.Requests tokens here (some request)
  | .afterRequest operation request stop =>
    Operation.AllWithin tokens start operation.start operations ∧
      operation.Requests tokens stop request ∧
      Span.Fits tokens ⟨operation.start, stop⟩ ∧ stop.AtMost here
  | .afterArrow operation request =>
    Operation.AllWithin tokens start operation.start operations ∧
      operation.Requests tokens here request

variable (tokens) in
structure NamedHeading.Serves (here : Position) (declared : NamedHeading)
    (embeds implements : List TypeReference) : Prop where
  begins : declared.start.BeginsToken tokens
  embeds : TypeReference.AllWithin tokens declared.start here embeds
  implements : TypeReference.AllWithin tokens declared.start here implements

namespace NamedHeading.Serves

variable {declared : NamedHeading} {embeds implements : List TypeReference}

theorem mono (serves : declared.Serves tokens here embeds implements)
    (isLater : here.AtMost later) : declared.Serves tokens later embeds implements :=
  ⟨serves.begins, serves.embeds.mono isLater, serves.implements.mono isLater⟩

theorem close (serves : declared.Serves tokens here embeds implements)
    (follows : token.Follows tokens here) :
    AllFit tokens (declared.declare (.service embeds implements) token.span.stop).nodes := by
  have isOpen : declared.start.IsOpen tokens here := ⟨serves.begins, serves.embeds.row.atMost⟩
  refine NamedHeading.fits_declare (isOpen.close follows) ?_ ?_
  · intro row member
    rcases List.mem_cons.mp member with rfl | member
    · exact Node.inRow_references (serves.embeds.row.widen follows.atMost_stop)
    · rw [List.mem_singleton.mp member]
      exact Node.inRow_references (serves.implements.row.widen follows.atMost_stop)
  · rw [DeclarationBody.nodes, List.map_append]
    exact serves.embeds.nodes.append serves.implements.nodes

end NamedHeading.Serves

/-! ## Fragments -/

variable (tokens) in
def Fragment.Fits (here : Position) : Fragment → Prop
  | .importing fragment => fragment.Fits tokens here
  | .afterDocumentation documentation => documentation.start.IsOpen tokens here
  | .afterWord _ heading => heading.start.IsOpen tokens here
  | .afterName _ declared | .afterColon declared => declared.start.IsOpen tokens here
  | .synonym declared reference =>
    declared.start.BeginsToken tokens ∧
      TypeReference.AllWithin tokens declared.start here [reference]
  | .inRecord record place => place.Fits tokens here record
  | .inInterface declared operations place =>
    declared.start.BeginsToken tokens ∧ place.Fits tokens here declared.start operations
  | .inService declared embeds implements _ => declared.Serves tokens here embeds implements
  | .ended declaration => AllFit tokens declaration.nodes ∧ declaration.span.stop.AtMost here

namespace Fragment

def outset : Fragment → Position
  | .importing fragment => fragment.outset
  | .afterDocumentation documentation => documentation.start
  | .afterWord _ heading => heading.start
  | .afterName _ declared | .afterColon declared | .synonym declared _
  | .inInterface declared _ _ | .inService declared _ _ _ => declared.start
  | .inRecord record _ => record.outset
  | .ended declaration => declaration.span.start

variable {extended : Fragment}

theorem fits_begin? (follows : token.Follows tokens here) {begun : Fragment}
    (begins : begin? token = some begun) :
    begun.Fits tokens token.span.stop ∧ begun.outset = token.span.start := by
  unfold begin? at begins
  split at begins <;> cases begins
  all_goals exact ⟨follows.isOpen, rfl⟩

theorem fits_close {record : OpenRecord} (fits : record.Fits tokens here)
    (follows : token.Follows tokens here) :
    (record.close token).Fits tokens token.span.stop ∧
      (record.close token).outset = record.outset := by
  cases record with
  | ofDeclaration declared start fields =>
    rcases fits with ⟨isOpen, begins, all⟩
    refine ⟨⟨?_, .refl _⟩, rfl⟩
    exact NamedHeading.fits_declare_type (.record fields ⟨start, token.span.stop⟩)
      isOpen.begins isOpen.behind (all.close begins follows)
  | ofField outer field start fields =>
    rcases fits with ⟨outerFits, isOpen, begins, all⟩
    refine ⟨?_, outer.outset_addTyped field _⟩
    exact outerFits.addTyped (.record fields ⟨start, token.span.stop⟩) isOpen.begins
      isOpen.behind (all.close begins follows)

end Fragment

theorem RecordPlace.Fits.extend {record : OpenRecord} {place : RecordPlace} {extended : Fragment}
    (fits : place.Fits tokens here record) (follows : token.Follows tokens here)
    (step : place.extend record token = some extended) :
    extended.Fits tokens token.span.stop ∧ extended.outset = record.outset := by
  unfold RecordPlace.extend at step
  split at step
  · cases step
    exact ⟨⟨OpenRecord.Fits.mono fits follows.behind, follows.isOpen⟩, rfl⟩
  · cases step
    exact ⟨⟨OpenRecord.Fits.mono fits follows.behind, follows.isOpen⟩, rfl⟩
  · cases step
    exact Fragment.fits_close fits follows
  · cases step
    exact ⟨⟨fits.1, fits.2.mono follows.atMost_stop⟩, rfl⟩
  · cases step
    exact ⟨⟨fits.1, fits.2.mono follows.atMost_stop⟩, rfl⟩
  · cases step
    exact ⟨⟨fits.1, fits.2.mono follows.atMost_stop⟩, rfl⟩
  · next field _ =>
    cases step
    refine ⟨?_, record.outset_addTyped field _⟩
    have type : AllFit tokens (TypeExpression.named (.ofToken token)).nodes := by
      rw [TypeExpression.nodes]
      exact .cons follows.reference_fits (by rintro node ⟨⟩)
    exact fits.1.addTyped (.named (.ofToken token)) fits.2.begins
      (fits.2.behind.trans follows.behind) type
  · next field _ =>
    cases step
    have opened : field.start.IsOpen tokens token.span.start := fits.2.mono follows.behind
    exact ⟨⟨fits.1, opened, follows.isOpen.begins, follows.proper.atMost, by rintro node ⟨⟩⟩, rfl⟩
  · cases step

/-! ## Interfaces -/

namespace InterfacePlace

variable {declared : NamedHeading} {operations : List Operation} {place : InterfacePlace}
  {extended : Fragment}

theorem fits_extendBody (begins : declared.start.BeginsToken tokens)
    (all : Operation.AllWithin tokens declared.start here operations)
    (follows : token.Follows tokens here)
    (step : extendBody declared operations token = some extended) :
    extended.Fits tokens token.span.stop ∧ extended.outset = declared.start := by
  unfold extendBody at step
  split at step <;> cases step
  · exact ⟨⟨begins, all.mono follows.behind, follows.isOpen⟩, rfl⟩
  · exact ⟨⟨begins, all.mono follows.behind, follows.isOpen⟩, rfl⟩
  · exact ⟨⟨all.close begins follows, .refl _⟩, rfl⟩

theorem Fits.extend (fits : place.Fits tokens here declared.start operations)
    (begins : declared.start.BeginsToken tokens) (follows : token.Follows tokens here)
    (step : place.extend declared operations token = some extended) :
    extended.Fits tokens token.span.stop ∧ extended.outset = declared.start := by
  unfold InterfacePlace.extend at step
  split at step
  · exact fits_extendBody begins fits follows step
  · cases step
    exact ⟨⟨begins, fits.1, fits.2.mono follows.atMost_stop⟩, rfl⟩
  · cases step
    exact ⟨⟨begins, fits.1, fits.2.mono follows.atMost_stop⟩, rfl⟩
  · cases step
    exact ⟨⟨begins, fits.1, fits.2.mono follows.atMost_stop⟩, rfl⟩
  · cases step
    rcases fits with ⟨all, isOpen⟩
    exact ⟨⟨begins, all, isOpen.begins, TypeReference.AllWithin.add (.nil isOpen.behind) follows⟩,
      rfl⟩
  · cases step
    rcases fits with ⟨all, isOpen⟩
    exact ⟨⟨begins, all, ⟨isOpen.begins, .nil (isOpen.behind.trans follows.atMost_stop)⟩,
      isOpen.close follows, .refl _⟩, rfl⟩
  · cases step
    rcases fits with ⟨all, openBegins, request⟩
    have isOpen : Position.IsOpen tokens _ here := ⟨openBegins, request.row.atMost⟩
    exact ⟨⟨begins, all, ⟨openBegins, request.mono follows.atMost_stop⟩, isOpen.close follows,
      .refl _⟩, rfl⟩
  · cases step
    rcases fits with ⟨all, ⟨openBegins, request⟩, _, behind⟩
    exact ⟨⟨begins, all, openBegins, request.mono (behind.trans follows.atMost_stop)⟩, rfl⟩
  · next operation request stop _ =>
    rcases fits with ⟨all, ⟨openBegins, row⟩, span, behind⟩
    have within : TypeReference.AllWithin tokens operation.start stop
        (operation.operation request none stop).references := by
      rw [Operation.references, NamedHeading.operation, Option.toList_none, List.append_nil]
      exact row
    have whole : Operation.AllWithin tokens declared.start stop
        (operations ++ [operation.operation request none stop]) :=
      Operation.AllWithin.add (operation.operation request none stop) all span within
    exact fits_extendBody begins (whole.mono behind) follows step
  · next operation request terminal =>
    cases step
    rcases fits with ⟨all, openBegins, row⟩
    have isOpen : operation.start.IsOpen tokens here := ⟨openBegins, row.row.atMost⟩
    have whole : Operation.AllWithin tokens declared.start token.span.stop
        (operations ++ [operation.operation request (some (.ofToken token)) token.span.stop]) :=
      Operation.AllWithin.add
        (operation.operation request (some (.ofToken token)) token.span.stop) all
        (isOpen.close follows) (row.add follows)
    exact ⟨⟨begins, whole⟩, rfl⟩
  · cases step

end InterfacePlace

/-! ## Services -/

namespace ServicePlace

variable {declared : NamedHeading} {embeds implements : List TypeReference}
  {place : ServicePlace} {extended : Fragment}

theorem fits_extendBody (serves : declared.Serves tokens here embeds implements)
    (follows : token.Follows tokens here)
    (step : extendBody declared embeds implements token = some extended) :
    extended.Fits tokens token.span.stop ∧ extended.outset = declared.start := by
  unfold extendBody at step
  split at step <;> cases step
  · exact ⟨serves.mono follows.atMost_stop, rfl⟩
  · exact ⟨serves.mono follows.atMost_stop, rfl⟩
  · exact ⟨⟨serves.close follows, .refl _⟩, rfl⟩

theorem fits_extend (serves : declared.Serves tokens here embeds implements)
    (follows : token.Follows tokens here)
    (step : place.extend declared embeds implements token = some extended) :
    extended.Fits tokens token.span.stop ∧ extended.outset = declared.start := by
  unfold ServicePlace.extend at step
  split at step
  · exact fits_extendBody serves follows step
  · cases step
    exact ⟨⟨serves.begins, serves.embeds.add follows,
      serves.implements.mono follows.atMost_stop⟩, rfl⟩
  · exact fits_extendBody serves follows step
  · cases step
    exact ⟨⟨serves.begins, serves.embeds.mono follows.atMost_stop,
      serves.implements.add follows⟩, rfl⟩
  · cases step
    exact ⟨serves.mono follows.atMost_stop, rfl⟩
  · exact fits_extendBody serves follows step
  · cases step

end ServicePlace

/-! ## Statements -/

namespace Fragment

variable {fragment extended : Fragment}

theorem Fits.extend (fits : fragment.Fits tokens here) (follows : token.Follows tokens here)
    (step : fragment.extend token = some extended) :
    extended.Fits tokens token.span.stop ∧ extended.outset = fragment.outset := by
  cases fragment with
  | importing fragment =>
    rcases Option.map_eq_some_iff.mp step with ⟨longer, importStep, rfl⟩
    exact ImportFragment.Fits.extend fits follows importStep
  | afterDocumentation documentation =>
    simp only [Fragment.extend] at step
    split at step <;> cases step
    all_goals exact ⟨Position.IsOpen.mono fits follows.atMost_stop, rfl⟩
  | afterWord kind heading =>
    simp only [Fragment.extend] at step
    split at step <;> cases step
    exact ⟨Position.IsOpen.mono fits follows.atMost_stop, rfl⟩
  | afterName kind declared =>
    have isOpen : declared.start.IsOpen tokens here := fits
    have begun : declared.start.AtMost token.span.stop :=
      isOpen.behind.trans follows.atMost_stop
    simp only [Fragment.extend] at step
    split at step <;> cases step
    · exact ⟨isOpen.mono follows.atMost_stop, rfl⟩
    · exact ⟨⟨isOpen.begins, begun, by rintro node ⟨⟩⟩, rfl⟩
    · exact ⟨⟨isOpen.begins, .nil begun, .nil begun⟩, rfl⟩
  | afterColon declared =>
    have isOpen : declared.start.IsOpen tokens here := fits
    simp only [Fragment.extend] at step
    split at step <;> cases step
    · exact ⟨⟨isOpen.begins, TypeReference.AllWithin.add (.nil isOpen.behind) follows⟩, rfl⟩
    · exact ⟨⟨isOpen.mono follows.behind, follows.isOpen.begins, follows.proper.atMost,
        by rintro node ⟨⟩⟩, rfl⟩
  | synonym declared reference => cases step
  | inRecord record place => exact RecordPlace.Fits.extend fits follows step
  | inInterface declared operations place =>
    exact InterfacePlace.Fits.extend fits.2 fits.1 follows step
  | inService declared embeds implements place =>
    exact ServicePlace.fits_extend fits follows step
  | ended declaration => cases step

theorem Fits.close? (fits : fragment.Fits tokens here) {statement : Statement}
    (closes : fragment.close? = some statement) :
    AllFit tokens statement.nodes ∧ statement.span.start = fragment.outset ∧
      statement.span.stop.AtMost here := by
  have importing : ∀ {clause : ImportClause} {last : ImportTarget},
      (clause.add last).Fits tokens here → last.span.stop.AtMost here := fun whole =>
    (whole.row_add.within (List.mem_append_right _ (List.mem_singleton_self _))).2.2
  cases fragment with
  | importing fragment =>
    rcases Option.map_eq_some_iff.mp closes with ⟨importStatement, importCloses, rfl⟩
    cases fragment with
    | afterTarget clause last =>
      cases importCloses
      exact ⟨ImportClause.Fits.statement fits.1, rfl, importing fits.1⟩
    | afterRenaming clause last =>
      cases importCloses
      exact ⟨ImportClause.Fits.statement fits, rfl, importing fits⟩
    | _ => cases importCloses
  | synonym declared reference =>
    cases closes
    rcases fits with ⟨begins, row, nodes⟩
    refine ⟨?_, rfl, row.2.2⟩
    exact declared.fits_declare_type (.named reference) begins row.1
      (by rw [TypeExpression.nodes]; exact nodes)
  | ended declaration =>
    cases closes
    exact ⟨fits.1, rfl, fits.2⟩
  | _ => cases closes

end Fragment

/-! ## Drafts -/

variable (tokens) in
def Draft.Fits (here : Position) (draft : Draft) : Prop :=
  match draft.current with
  | none => Statement.AllWithin tokens .first here draft.finished
  | some fragment =>
    Statement.AllWithin tokens .first fragment.outset draft.finished ∧ fragment.Fits tokens here

namespace Statement.AllWithin

variable {statements : List Statement}

theorem mono (all : AllWithin tokens start here statements) (isLater : here.AtMost later) :
    AllWithin tokens start later statements :=
  ⟨all.row.widen isLater, all.nodes⟩

theorem add {statement : Statement} (all : AllWithin tokens start here statements)
    (fits : AllFit tokens statement.nodes) (begins : statement.span.start = here) :
    AllWithin tokens start statement.span.stop (statements ++ [statement]) where
  row := by
    have row := all.row
    rw [← begins] at row
    rw [List.map_append]
    exact row.concat (Statement.span_fits fits).proper
  nodes := by
    rw [List.flatMap_append, List.flatMap_singleton]
    exact all.nodes.append fits

theorem row_program (all : AllWithin tokens start here statements) {span : Span}
    (placed : (Program.mk statements).span = some span) :
    span.Fits tokens ∧ Span.InRow span.start span.stop (statements.map Statement.span) := by
  rw [Program.span] at placed
  split at placed
  · next first last isFirst isLast =>
    cases placed
    have isFirst : statements.head? = some first := isFirst
    have isLast : statements.getLast? = some last := isLast
    have row : Span.InRow first.span.start last.span.stop (statements.map Statement.span) :=
      all.row.tighten (by rw [List.head?_map, isFirst]; rfl)
        (by rw [List.getLast?_map, isLast]; rfl)
    have within := row.within (List.mem_map_of_mem (List.mem_of_mem_head? isFirst))
    have spanOf : ∀ statement ∈ statements, statement.span.Fits tokens := fun statement isIn =>
      Statement.span_fits fun node member =>
        all.nodes node (List.mem_flatMap.mpr ⟨statement, isIn, member⟩)
    exact ⟨⟨within.2.1.trans_atMost within.2.2,
      (spanOf first (List.mem_of_mem_head? isFirst)).begins,
      (spanOf last (List.mem_of_getLast? isLast)).ends⟩, row⟩
  · cases placed

theorem program (all : AllWithin tokens start here statements) :
    AllFit tokens (Program.mk statements).nodes := by
  refine .cons ⟨?_, ?_, trivial⟩ all.nodes
  · intro span placed
    exact (all.row_program placed).1
  · intro span placed row member
    rw [List.mem_singleton.mp member]
    exact Node.inRow_statements (all.row_program placed).2

end Statement.AllWithin

namespace Draft

variable {draft next : Draft}

/-- A token that follows is put in its place. -/
theorem Fits.step (fits : draft.Fits tokens here) (follows : token.Follows tokens here)
    (step : draft.step token = some next) : next.Fits tokens token.span.stop := by
  rw [Fits] at fits
  rcases step_cases step with ⟨fragment, extended, current, longer, rfl⟩ |
    ⟨current, begun, begins, rfl⟩ | ⟨fragment, statement, begun, current, _, closes, begins, rfl⟩
  · rw [current] at fits
    rcases Fragment.Fits.extend fits.2 follows longer with ⟨extendedOf, same⟩
    refine ⟨?_, extendedOf⟩
    rw [same]
    exact fits.1
  · rw [current] at fits
    rcases Fragment.fits_begin? follows begins with ⟨begunOf, begun⟩
    refine ⟨?_, begunOf⟩
    rw [begun]
    exact Statement.AllWithin.mono fits follows.behind
  · rw [current] at fits
    rcases Fragment.fits_begin? follows begins with ⟨begunOf, begun⟩
    rcases Fragment.Fits.close? fits.2 closes with ⟨statementOf, same, behind⟩
    refine ⟨?_, begunOf⟩
    rw [begun]
    exact (fits.1.add statementOf same).mono (behind.trans follows.behind)

theorem Fits.finish? (fits : draft.Fits tokens here) {program : Program}
    (finished : draft.finish? = some program) : AllFit tokens program.nodes := by
  rw [Fits] at fits
  rw [Draft.finish?] at finished
  cases current : draft.current with
  | none =>
    rw [current] at fits finished
    cases finished
    exact fits.program
  | some fragment =>
    rw [current] at fits finished
    rcases Option.map_eq_some_iff.mp finished with ⟨statement, closes, rfl⟩
    rcases Fragment.Fits.close? fits.2 closes with ⟨statementOf, same, _⟩
    exact (fits.1.add statementOf same).program

theorem fits_empty : Draft.empty.Fits tokens .first := ⟨.refl _, by rintro node ⟨⟩⟩

end Draft

end ServiceModules
