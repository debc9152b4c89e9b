import ServiceModules.Proofs.Source.Excerpt
import ServiceModules.Proofs.Source.Order

/-!
Rows of spans. The spans of a row stand one behind the other between two places, none of them is
empty and no two of them overlap. In a text, a span that begins where one piece begins and ends
where a later piece ends runs over both and all between them.
-/

namespace ServiceModules

namespace Span

/-- The spans stand one behind the other from `start` to `stop`. -/
def InRow (start stop : Position) : List Span → Prop
  | [] => start.AtMost stop
  | span :: rest =>
    start.AtMost span.start ∧ span.start.Before span.stop ∧ InRow span.stop stop rest

variable {start stop : Position} {span : Span} {spans : List Span}

theorem InRow.atMost (row : InRow start stop spans) : start.AtMost stop := by
  induction spans generalizing start with
  | nil => exact row
  | cons span rest induction =>
    rcases row with ⟨first, proper, rest⟩
    exact first.trans (proper.atMost.trans (induction rest))

theorem InRow.lower (row : InRow start stop spans) {earlier : Position}
    (isEarlier : earlier.AtMost start) : InRow earlier stop spans := by
  cases spans with
  | nil => exact isEarlier.trans row
  | cons span rest => exact ⟨isEarlier.trans row.1, row.2⟩

theorem InRow.widen (row : InRow start stop spans) {later : Position}
    (isLater : stop.AtMost later) : InRow start later spans := by
  induction spans generalizing start with
  | nil => exact Position.AtMost.trans row isLater
  | cons span rest induction => exact ⟨row.1, row.2.1, induction row.2.2⟩

theorem InRow.single (first : start.AtMost span.start) (proper : span.start.Before span.stop)
    (last : span.stop.AtMost stop) : InRow start stop [span] :=
  ⟨first, proper, last⟩

theorem InRow.concat (row : InRow start span.start spans) (proper : span.start.Before span.stop) :
    InRow start span.stop (spans ++ [span]) := by
  induction spans generalizing start with
  | nil => exact .single row proper (.refl _)
  | cons first rest induction => exact ⟨row.1, row.2.1, induction row.2.2⟩

theorem InRow.stretch (row : InRow start stop (spans ++ [span])) {later : Position}
    (proper : span.start.Before later) : InRow start later (spans ++ [⟨span.start, later⟩]) := by
  induction spans generalizing start with
  | nil => exact .single row.1 proper (.refl _)
  | cons first rest induction => exact ⟨row.1, row.2.1, induction row.2.2⟩

theorem InRow.close (row : InRow start stop (spans ++ [span])) :
    InRow start span.stop (spans ++ [span]) := by
  induction spans generalizing start with
  | nil => exact .single row.1 row.2.1 (.refl _)
  | cons first rest induction => exact ⟨row.1, row.2.1, induction row.2.2⟩

theorem InRow.append {middle : Position} {more : List Span} (row : InRow start middle spans)
    (behind : InRow middle stop more) : InRow start stop (spans ++ more) := by
  induction spans generalizing start with
  | nil => exact behind.lower row
  | cons first rest induction => exact ⟨row.1, row.2.1, induction row.2.2⟩

/-- A row whose spans give way to rows within them is a row again. -/
theorem InRow.refine {Item : Type} {span : Item → Span} {pieces : Item → List Span}
    {items : List Item} (row : InRow start stop (items.map span))
    (within : ∀ item ∈ items, InRow (span item).start (span item).stop (pieces item)) :
    InRow start stop (items.flatMap pieces) := by
  induction items generalizing start with
  | nil => exact row
  | cons item rest induction =>
    rcases row with ⟨first, _, row⟩
    have here := (within item (List.mem_cons_self ..)).lower first
    exact here.append (induction row fun other isIn => within other (List.mem_cons_of_mem _ isIn))

theorem InRow.within (row : InRow start stop spans) {member : Span} (isIn : member ∈ spans) :
    start.AtMost member.start ∧ member.start.Before member.stop ∧ member.stop.AtMost stop := by
  induction spans generalizing start with
  | nil => cases isIn
  | cons span rest induction =>
    rcases row with ⟨first, proper, row⟩
    rcases List.mem_cons.mp isIn with rfl | isIn
    · exact ⟨first, proper, row.atMost⟩
    · rcases induction row isIn with ⟨behind, properMember, last⟩
      exact ⟨first.trans (proper.atMost.trans behind), properMember, last⟩

theorem InRow.pairwise (row : InRow start stop spans) :
    spans.Pairwise fun left right => left.stop.AtMost right.start := by
  induction spans generalizing start with
  | nil => exact .nil
  | cons span rest induction =>
    rcases row with ⟨_, _, row⟩
    exact .cons (fun other isIn => (row.within isIn).1) (induction row)

theorem InRow.pairwise_start (row : InRow start stop spans) :
    spans.Pairwise fun left right => left.start.Before right.start := by
  apply row.pairwise.imp_of_mem
  intro left right isLeft _ order
  exact (row.within isLeft).2.1.trans_atMost order

theorem InRow.tighten {first last : Span} (row : InRow start stop spans)
    (isFirst : spans.head? = some first) (isLast : spans.getLast? = some last) :
    InRow first.start last.stop spans := by
  rcases List.getLast?_eq_some_iff.mp isLast with ⟨front, rfl⟩
  have ended := row.close
  generalize front ++ [last] = spans at isFirst ended
  cases spans with
  | nil => cases isFirst
  | cons span rest =>
    cases isFirst
    exact ⟨.refl _, ended.2⟩

end Span

/-! ## Pieces of a text -/

namespace Position

theorem isPrefix_of_afterAll_atMost {text left right : List Char} (leftBegins : left <+: text)
    (rightBegins : right <+: text)
    (order : (first.afterAll left).AtMost (first.afterAll right)) : left <+: right := by
  rcases List.prefix_or_prefix_of_prefix leftBegins rightBegins with shorter | ⟨more, longer⟩
  · exact shorter
  · rw [← longer, afterAll_append] at order
    cases more with
    | nil => exact ⟨[], by rw [← longer, List.append_nil, List.append_nil]⟩
    | cons character rest =>
      have back := before_afterAll (first.afterAll right)
        (List.length_pos_iff.mpr (List.cons_ne_nil character rest))
      exact absurd rfl (back.trans_atMost order).ne

theorem eq_of_afterAll_eq {text left right : List Char} (leftBegins : left <+: text)
    (rightBegins : right <+: text) (same : first.afterAll left = first.afterAll right) :
    left = right := by
  have shorter := isPrefix_of_afterAll_atMost leftBegins rightBegins (.inl same)
  have longer := isPrefix_of_afterAll_atMost rightBegins leftBegins (.inl same.symm)
  exact shorter.eq_of_length_le longer.length_le

end Position

namespace Span

variable {left right : Span} {text leftPiece rightPiece : List Char}

theorem Covers.enclose (leftCovers : left.Covers text leftPiece)
    (rightCovers : right.Covers text rightPiece) (order : left.stop.AtMost right.start) :
    ∃ between, (left.upTo right).Covers text (leftPiece ++ (between ++ rightPiece)) := by
  rcases leftCovers with ⟨visible, front, back, whole, rfl⟩
  rcases rightCovers with ⟨_, otherFront, otherBack, otherWhole, rfl⟩
  have leftBegins : front ++ leftPiece <+: text := ⟨back, by rw [whole, List.append_assoc]⟩
  have rightBegins : otherFront <+: text := ⟨rightPiece ++ otherBack, otherWhole.symm⟩
  rw [ofText, ofText, ← Position.afterAll_append] at order
  rcases Position.isPrefix_of_afterAll_atMost leftBegins rightBegins order with ⟨between, rfl⟩
  refine ⟨between, visible.append _, front, otherBack, ?_, ?_⟩
  · rw [otherWhole]
    simp only [List.append_assoc]
  · simp only [Span.upTo, ofText, Position.afterAll_append]

theorem Covers.unique {span : Span} {piece other : List Char} (covers : span.Covers text piece)
    (alsoCovers : span.Covers text other) : piece = other := by
  rcases covers with ⟨_, front, back, whole, placed⟩
  rcases alsoCovers with ⟨_, otherFront, otherBack, otherWhole, otherPlaced⟩
  rw [placed, ofText, ofText, Span.mk.injEq] at otherPlaced
  have sameFront : front = otherFront :=
    Position.eq_of_afterAll_eq ⟨_, whole.symm⟩ ⟨_, otherWhole.symm⟩ otherPlaced.1
  subst sameFront
  have begins : front ++ piece <+: text := ⟨back, by rw [whole, List.append_assoc]⟩
  have otherBegins : front ++ other <+: text :=
    ⟨otherBack, by rw [otherWhole, List.append_assoc]⟩
  have stop := otherPlaced.2
  rw [← Position.afterAll_append, ← Position.afterAll_append] at stop
  exact List.append_cancel_left (Position.eq_of_afterAll_eq begins otherBegins stop)

theorem Covers.proper {span : Span} {piece : List Char} (covers : span.Covers text piece) :
    span.start.Before span.stop := by
  rcases covers with ⟨⟨character, rest, rfl, _⟩, front, back, _, rfl⟩
  exact Position.before_afterAll _ (Nat.succ_pos _)

theorem Covers.isExcerpt (leftCovers : left.Covers text leftPiece)
    (rightCovers : right.Covers text rightPiece) (order : left.start.Before right.stop) :
    (left.upTo right).IsExcerpt text := by
  rcases leftCovers with ⟨visible, front, back, whole, rfl⟩
  rcases rightCovers with ⟨_, otherFront, otherBack, otherWhole, rfl⟩
  have leftBegins : front <+: text := ⟨leftPiece ++ back, whole.symm⟩
  have rightBegins : otherFront ++ rightPiece <+: text :=
    ⟨otherBack, by rw [otherWhole, List.append_assoc]⟩
  have order : (Position.first.afterAll front).Before
      (Position.first.afterAll (otherFront ++ rightPiece)) := by
    rw [Position.afterAll_append]
    exact order
  rcases Position.isPrefix_of_afterAll_atMost leftBegins rightBegins order.atMost with
    ⟨piece, longer⟩
  have nonempty : piece ≠ [] := by
    rintro rfl
    rw [← longer, List.append_nil] at order
    exact order.ne rfl
  have same : leftPiece ++ back = piece ++ otherBack := by
    have twice : front ++ (leftPiece ++ back) = front ++ (piece ++ otherBack) := by
      rw [← whole, ← List.append_assoc, longer, List.append_assoc]
      exact otherWhole
    exact List.append_cancel_left twice
  refine ⟨piece, ?_, front, otherBack, ?_, ?_⟩
  · have visibleBehind := visible.append back
    rw [same] at visibleBehind
    exact visibleBehind.left nonempty
  · rw [← same]
    exact whole
  · have stop : (Position.first.afterAll otherFront).afterAll rightPiece
        = (Position.first.afterAll front).afterAll piece := by
      rw [← Position.afterAll_append, ← longer, Position.afterAll_append]
    exact congrArg (Span.mk _) stop

end Span

end ServiceModules
