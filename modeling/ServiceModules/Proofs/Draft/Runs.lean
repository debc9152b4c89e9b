import ServiceModules.Proofs.Draft.Likeness
import ServiceModules.Proofs.Token.Clear

/-!
Runs over tokens. A draft that takes clear tokens one after the other reads the text in which they
are laid out, wherever this text stands.
-/

namespace ServiceModules

/-- From one draft to another by these tokens, each of them clear where it comes. -/
inductive Draft.Runs : Draft → List Token → Draft → Prop
  | done {draft : Draft} : Runs draft [] draft
  | token {draft next last : Draft} {token : Token} {rest : List Token}
      (clear : token.IsClear draft.sought) (stepped : draft.step token = some next)
      (runs : Runs next rest last) : Runs draft (token :: rest) last

namespace Draft

variable {draft middle last : Draft} {tokens more : List Token}

theorem Runs.append (runs : Runs draft tokens middle) (runsOn : Runs middle more last) :
    Runs draft (tokens ++ more) last := by
  induction runs with
  | done => exact runsOn
  | token clear stepped _ induction => exact .token clear stepped (induction runsOn)

theorem Runs.one {token : Token} (clear : token.IsClear draft.sought)
    (stepped : draft.step token = some last) : Runs draft [token] last :=
  .token clear stepped .done

end Draft

namespace Token

theorem isBlank_separator (token next : Token) :
    Lexeme.isBlank (token.separator next) = true := by
  rw [separator]
  split <;> rfl

theorem ends_separator {sought : List Terminal} {token : Token} (clear : token.IsClear sought)
    (next : Token) (rest : List Char) :
    token.separator next = '\n' ∨
      Lexeme.docComment? (token.text ++ token.separator next :: rest) = none := by
  by_cases documentation : token.terminal = .docComment
  · exact .inl (if_pos (.inl documentation))
  · exact .inr (Lexeme.docComment?_of_scan_other clear documentation _)

theorem IsClear.text_ne_nil {sought : List Terminal} {token : Token}
    (clear : token.IsClear sought) : token.text ≠ [] :=
  List.length_pos_iff.mp (Lexeme.length_pos_of_scan clear)

theorem IsClear.exists_layout {sought : List Terminal} {token : Token}
    (clear : token.IsClear sought) (rest : List Token) :
    ∃ blanks, (∀ character ∈ blanks, Lexeme.isBlank character = true) ∧
      (blanks = [] → rest = []) ∧
      layout (token :: rest) = token.text ++ (blanks ++ layout rest) ∧
      Lexeme.scan sought (token.text ++ (blanks ++ layout rest)) =
        some ⟨token.terminal, token.text⟩ := by
  cases rest with
  | nil =>
      refine ⟨[], by simp, fun _ => rfl, by simp [layout], ?_⟩
      rw [layout, List.append_nil, List.append_nil]
      exact clear
  | cons next rest =>
      refine ⟨[token.separator next], ?_, fun nothing => absurd nothing (List.cons_ne_nil _ _),
        rfl, ?_⟩
      · intro character member
        rw [List.mem_singleton.mp member]
        exact token.isBlank_separator next
      · rw [List.singleton_append, Lexeme.scan_append_blank clear.text_ne_nil
          (token.isBlank_separator next) (ends_separator clear next _)]
        exact clear

end Token

theorem Lexeme.gap_append_of_blank {blanks : List Char}
    (blank : ∀ character ∈ blanks, isBlank character = true) (rest : List Char) :
    gap (blanks ++ rest) = blanks ++ gap rest := by
  induction blanks with
  | nil => rfl
  | cons character blanks induction =>
      have here := blank character (List.mem_cons_self ..)
      have behind := induction fun other member => blank other (List.mem_cons_of_mem _ member)
      rw [gap] at behind ⊢
      rw [List.cons_append, gapFrom_false_cons_of_isBlank here, behind]
      rfl

/-- A run over tokens is a reading of their layout, whatever places the drafts hold. -/
theorem Draft.Runs.reaches {draft last : Draft} {tokens : List Token}
    (runs : draft.Runs tokens last) {reading : Reading} {blanks : List Char}
    (like : IsLike (fun _ => none) draft reading.draft)
    (blank : ∀ character ∈ blanks, Lexeme.isBlank character = true)
    (same : reading.rest = blanks ++ Token.layout tokens) :
    ∃ later, reading.Reaches later ∧ IsLike (fun _ => none) last later.draft ∧
      Lexeme.gap later.rest = later.rest := by
  induction runs generalizing reading blanks with
  | done =>
      refine ⟨reading, .refl, like, ?_⟩
      rw [same, Lexeme.gap_append_of_blank blank]
      rfl
  | @token draft next last token rest clear stepped _ induction =>
      rcases reading with ⟨other, position, characters⟩
      rcases token with ⟨terminal, text, span⟩
      rcases clear.exists_layout rest with ⟨blanksBehind, blankBehind, _, laidOut, scanned⟩
      rcases like.step (.ofText (position.afterAll blanks) text) rfl (fun _ _ => .inl rfl)
        stepped with ⟨otherNext, otherStepped, likeNext⟩
      rw [laidOut] at same
      cases same
      have gapped : Lexeme.gap (blanks ++ (text ++ (blanksBehind ++ Token.layout rest))) =
          blanks := by
        have nothing := Lexeme.gap_of_scan scanned []
        rw [List.append_nil] at nothing
        rw [Lexeme.gap_append_of_blank blank, nothing, List.append_nil]
      rw [← like.sought_eq] at scanned
      have takes := @Reading.Takes.token other otherNext position blanks _ ⟨terminal, text⟩ gapped
        scanned otherStepped
      rcases @induction ⟨otherNext, _, blanksBehind ++ Token.layout rest⟩ blanksBehind likeNext
        blankBehind rfl with ⟨later, reaches, likeLater, nothingBehind⟩
      exact ⟨later, .head takes reaches, likeLater, nothingBehind⟩

theorem Draft.Runs.exists_parse {last : Draft} {tokens : List Token}
    (runs : Draft.empty.Runs tokens last) {program : Program}
    (finished : last.finish? = some program) :
    ∃ read, Program.parse (String.ofList (Token.layout tokens)) = .ok read ∧
      read.withoutPlaces = program.withoutPlaces := by
  have like : IsLike (fun _ => none) .empty (Reading.start (Token.layout tokens)).draft := rfl
  rcases @Runs.reaches _ _ _ runs (.start (Token.layout tokens)) [] like (by simp) rfl with
    ⟨later, reaches, likeLater, nothingBehind⟩
  rcases likeLater.finish? finished with ⟨read, readFinished, same⟩
  refine ⟨read, ?_, same⟩
  rw [Program.parse_eq_ok_iff, String.toList_ofList]
  exact ⟨later, reaches, nothingBehind, readFinished⟩

end ServiceModules
