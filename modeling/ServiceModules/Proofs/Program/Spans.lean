import Mathlib
import ServiceModules.Proofs.Draft.Excerpts
import ServiceModules.Proofs.Draft.Places
import ServiceModules.Proofs.Program.Sites
import ServiceModules.Proofs.Token.Clear

/-!
Spans are faithful and nested. In a program that was read from a text every node with a span runs
over a piece of the text, the nodes below it stand within it in rows, and names, paths and import
targets run over the text that they are written as. Import targets and references share no span.
-/

namespace ServiceModules

/-! ## Readings -/

def Tokens.ofText (text : List Char) : Tokens := fun token => token.span.Covers text token.text

structure Token.IsWithin (text : List Char) (start stop : Position) (token : Token) : Prop where
  covers : token.span.Covers text token.text
  behind : start.AtMost token.span.start
  before : token.span.stop.AtMost stop

namespace Reading

variable {reading later : Reading} {text read : List Char} {tokens : Tokens}

theorem Takes.exists_token (takes : reading.Takes later) (place : reading.HasRead text read) :
    ∃ token after, later.HasRead text after ∧ token.span.Covers text token.text ∧
      reading.draft.step token = some later.draft ∧
      reading.position.AtMost token.span.start ∧ later.position = token.span.stop := by
  cases takes with
  | @token draft next position gap rest found gapped scanned stepped =>
    have nonempty := List.length_pos_iff.mp (Lexeme.length_pos_of_scan scanned)
    have covers := (place.covers nonempty gapped).mono (place.token next).isPrefix
    exact ⟨⟨found.terminal, found.text, _⟩, _, place.token next, covers, stepped,
      Position.atMost_afterAll position gap, rfl⟩

/-- A reading puts the nodes of its draft where the tokens are that it comes by. -/
theorem Reaches.fits (reaches : reading.Reaches later) (place : reading.HasRead text read)
    {here : Position} (fits : reading.draft.Fits tokens here)
    (early : here.AtMost reading.position)
    (known : ∀ token, token.IsWithin text reading.position later.position → tokens token) :
    ∃ last after, later.draft.Fits tokens last ∧ last.AtMost later.position ∧
      reading.position.AtMost later.position ∧ later.HasRead text after := by
  induction reaches with
  | refl => exact ⟨here, read, fits, early, .refl _, place⟩
  | @tail between last _ takes induction =>
    have goesOn := takes.position_before.atMost
    rcases induction fun token within =>
        known token ⟨within.covers, within.behind, within.before.trans goesOn⟩ with
      ⟨hereBetween, afterBetween, fitsBetween, earlyBetween, reached, placeBetween⟩
    rcases takes.exists_token placeBetween with
      ⟨token, after, placed, covers, stepped, behind, stop⟩
    have isKnown : tokens token :=
      known token ⟨covers, reached.trans behind, stop ▸ .refl _⟩
    have follows : token.Follows tokens hereBetween :=
      ⟨isKnown, earlyBetween.trans behind, covers.proper⟩
    exact ⟨token.span.stop, after, fitsBetween.step follows stepped, stop ▸ .refl _,
      reached.trans goesOn, placed⟩

end Reading

theorem Program.allFit_of_ofText {keepsDocumentation : Bool} {uri text : String}
    {program : Program} (read : ofText keepsDocumentation uri text = .ok program) :
    AllFit (.ofText text.toList) program.nodes := by
  rw [ofText_eq_parse] at read
  split at read
  · cases read
  · next parsedProgram parsed =>
    rcases parse_eq_ok_iff.mp parsed with ⟨last, reaches, _, finished⟩
    have place : (Reading.start text.toList).HasRead text.toList [] := ⟨rfl, rfl⟩
    rcases reaches.fits place Draft.fits_empty (.refl _) fun token within => within.covers with
      ⟨_, _, fits, _⟩
    have all := fits.finish? finished
    cases read
    cases keepsDocumentation with
    | true => exact all
    | false => exact all.withoutDocumentation

/-! ## Faithful spans -/

/-- The span of a target runs over its name, or from its name to the name that it is bound to. -/
def ImportTarget.IsWritten (target : ImportTarget) (text : List Char) : Prop :=
  match target.renamed with
  | none => target.span.Covers text target.name.toList
  | some renamed => ∃ between,
      target.span.Covers text (target.name.toList ++ (between ++ renamed.toList))

/-- The spans of the program are those of its nodes in the text. -/
structure Program.IsFaithful (program : Program) (text : List Char) : Prop where
  /-- Only a program without statements has no span. -/
  placed : ∀ node ∈ program.nodes, node.span? = none → node = .ofProgram ⟨[]⟩
  /-- A span runs over a piece of the text that is not empty. -/
  excerpts : ∀ node ∈ program.nodes, ∀ span, node.span? = some span → span.IsExcerpt text
  /-- Every node but the program stands right below another one. -/
  spread : Node.Spread (.ofProgram program) program.nodes
  /-- The nodes right below a node have spans within its own. -/
  nested : ∀ node ∈ program.nodes, ∀ child ∈ node.children, ∃ outer inner,
    node.span? = some outer ∧ child.span? = some inner ∧
      outer.start.AtMost inner.start ∧ inner.stop.AtMost outer.stop
  /-- The spans of a row follow each other and do not overlap. -/
  rows : ∀ node ∈ program.nodes, ∀ row ∈ node.rows,
    (row.filterMap Node.span?).Pairwise fun left right => left.stop.AtMost right.start
  references : ∀ reference, .ofReference reference ∈ program.nodes →
    reference.span.Covers text reference.name.toList
  paths : ∀ statement, .ofImport statement ∈ program.nodes →
    statement.pathSpan.Covers text statement.path.text.toList
  targets : ∀ target, .ofTarget target ∈ program.nodes → target.IsWritten text
  /-- No two import targets or references have one span. -/
  distinct : (program.targets.map ImportTarget.span ++
    (program.declarations.flatMap Declaration.references).map TypeReference.span).Nodup

section

variable {text : List Char}

theorem Span.Fits.isExcerpt {span : Span} (fits : span.Fits (.ofText text)) :
    span.IsExcerpt text := by
  rcases fits with ⟨proper, ⟨first, firstCovers, begins⟩, ⟨last, lastCovers, ends⟩⟩
  rw [← begins, ← ends] at proper
  have excerpt := firstCovers.isExcerpt lastCovers proper
  rw [Span.upTo, begins, ends] at excerpt
  exact excerpt

theorem TypeReference.Fits.covers {reference : TypeReference}
    (fits : reference.Fits (.ofText text)) : reference.span.Covers text reference.name.toList := by
  rcases fits with ⟨token, covers, rfl⟩
  rw [ofToken, Token.string, String.toList_ofList]
  exact covers

theorem ImportStatement.Fits.covers {statement : ImportStatement}
    (fits : statement.Fits (.ofText text)) :
    statement.pathSpan.Covers text statement.path.text.toList := by
  rcases fits with ⟨⟨token, covers, path, placed⟩, _⟩
  rw [path, placed, ImportPath.text_ofText, Token.string, String.toList_ofList]
  exact covers

theorem ImportTarget.Fits.isWritten {target : ImportTarget}
    (fits : target.Fits (.ofText text)) : target.IsWritten text := by
  rcases fits with ⟨token, covers, named, placed⟩
  have nameText : target.name.toList = token.text := by
    rw [named, Token.string, String.toList_ofList]
  unfold IsWritten
  cases renamed : target.renamed with
  | none =>
    rw [renamed] at placed
    have placed : target.span = token.span := placed
    rw [placed, nameText]
    exact covers
  | some later =>
    rw [renamed] at placed
    rcases placed with ⟨last, lastCovers, same, order, placed⟩
    have laterText : later.toList = last.text := by
      rw [same, Token.string, String.toList_ofList]
    rcases covers.enclose lastCovers order with ⟨between, enclosed⟩
    refine ⟨between, ?_⟩
    rw [placed, nameText, laterText]
    exact enclosed

namespace Node

variable {node : Node}

theorem Fits.within (fits : node.Fits (.ofText text)) {outer : Span}
    (placed : node.span? = some outer) {child : Node} (isChild : child ∈ node.children) :
    ∃ inner, child.span? = some inner ∧
      outer.start.AtMost inner.start ∧ inner.stop.AtMost outer.stop := by
  rcases List.mem_flatten.mp isChild with ⟨row, isRow, isIn⟩
  rcases fits.rows outer placed row isRow with ⟨spans, placedRow, inRow⟩
  have isPlaced : child.span? ∈ spans.map some := by
    rw [← placedRow]
    exact List.mem_map_of_mem isIn
  rcases List.mem_map.mp isPlaced with ⟨inner, isInner, same⟩
  have within := inRow.within isInner
  exact ⟨inner, same.symm, within.1, within.2.2⟩

theorem Fits.pairwise (fits : node.Fits (.ofText text)) {outer : Span}
    (placed : node.span? = some outer) {row : List Node} (isRow : row ∈ node.rows) :
    (row.filterMap span?).Pairwise fun left right => left.stop.AtMost right.start :=
  (fits.rows outer placed row isRow).spans.pairwise

theorem eq_ofProgram_of_span?_eq_none (unplaced : node.span? = none) :
    node = .ofProgram ⟨[]⟩ := by
  cases node with
  | ofProgram program =>
    rcases program with ⟨statements⟩
    cases statements with
    | nil => rfl
    | cons first rest =>
      rw [span?, Program.span, List.head?_cons, List.getLast?_cons] at unplaced
      cases unplaced
  | _ => cases unplaced

end Node

end

namespace Program

variable {program : Program} {text : List Char}

theorem isFaithful_of_allFit (all : AllFit (.ofText text) program.nodes)
    (apart : program.HasDistinctMarks) : program.IsFaithful text where
  placed := fun node _ unplaced => node.eq_ofProgram_of_span?_eq_none unplaced
  excerpts := fun node isNode span placed => ((all node isNode).span span placed).isExcerpt
  spread := program.spread
  nested := by
    intro node isNode child isChild
    cases placed : node.span? with
    | none =>
      rw [node.eq_ofProgram_of_span?_eq_none placed] at isChild
      cases isChild
    | some outer =>
      rcases (all node isNode).within placed isChild with ⟨inner, within⟩
      exact ⟨outer, inner, rfl, within⟩
  rows := by
    intro node isNode row isRow
    cases placed : node.span? with
    | none =>
      rw [node.eq_ofProgram_of_span?_eq_none placed] at isRow
      rw [List.mem_singleton.mp isRow]
      exact .nil
    | some outer => exact (all node isNode).pairwise placed isRow
  references := fun reference isNode => TypeReference.Fits.covers (all _ isNode).names
  paths := fun statement isNode => ImportStatement.Fits.covers (all _ isNode).names
  targets := fun target isNode => ImportTarget.Fits.isWritten (all _ isNode).names
  distinct := by
    apply List.Nodup.of_map Span.start
    rw [List.map_append, List.map_map, List.map_map]
    exact apart

/-- In a program that was read from a text, with or without its documentation, spans are faithful:
they run over what they stand for, and lie in one another as the nodes do. -/
theorem spans_are_faithful {keepsDocumentation : Bool} {uri text : String} {program : Program}
    (read : ofText keepsDocumentation uri text = .ok program) :
    program.IsFaithful text.toList :=
  isFaithful_of_allFit (allFit_of_ofText read) (hasDistinctMarks_of_ofText read)

/-- A renamed import over two lines, and a field behind documentation and a comment. -/
theorem spans_are_faithful_renamed :
    ∃ program,
      ofText true "a" "from b import C\n  as D // e\ntype F: \x7b\n/// g\nh: D\x7d" = .ok program ∧
        program.nodes.filterMap Node.span? =
          [⟨⟨1, 1⟩, ⟨5, 6⟩⟩, ⟨⟨1, 1⟩, ⟨2, 7⟩⟩, ⟨⟨1, 15⟩, ⟨2, 7⟩⟩, ⟨⟨3, 1⟩, ⟨5, 6⟩⟩,
            ⟨⟨3, 9⟩, ⟨5, 6⟩⟩, ⟨⟨4, 1⟩, ⟨5, 5⟩⟩, ⟨⟨5, 4⟩, ⟨5, 5⟩⟩] ∧
        program.IsFaithful
          "from b import C\n  as D // e\ntype F: \x7b\n/// g\nh: D\x7d".toList := by
  have spans :
      (ofText true "a" "from b import C\n  as D // e\ntype F: \x7b\n/// g\nh: D\x7d").map
        (fun program => program.nodes.filterMap Node.span?) =
      .ok [⟨⟨1, 1⟩, ⟨5, 6⟩⟩, ⟨⟨1, 1⟩, ⟨2, 7⟩⟩, ⟨⟨1, 15⟩, ⟨2, 7⟩⟩, ⟨⟨3, 1⟩, ⟨5, 6⟩⟩,
        ⟨⟨3, 9⟩, ⟨5, 6⟩⟩, ⟨⟨4, 1⟩, ⟨5, 5⟩⟩, ⟨⟨5, 4⟩, ⟨5, 5⟩⟩] := by cbv
  cases accepted :
      ofText true "a" "from b import C\n  as D // e\ntype F: \x7b\n/// g\nh: D\x7d" with
  | error fault =>
    rw [accepted] at spans
    cases spans
  | ok program =>
    rw [accepted] at spans
    exact ⟨program, rfl, Except.ok.inj spans, spans_are_faithful accepted⟩

end Program

end ServiceModules
