import ServiceModules.Proofs.Charset.Length
import ServiceModules.Proofs.Draft.Step
import ServiceModules.Proofs.Program.Requests
import ServiceModules.Proofs.Program.Table

/-!
How many import requests a text can have. Every statement has a token, every token has a character,
and every character takes a byte, so that a module has no more requests than bytes.
-/

namespace ServiceModules

namespace Draft

variable {draft next : Draft}

def begun (draft : Draft) : Nat := draft.finished.length + if draft.current.isSome then 1 else 0

theorem begun_le_of_step {token : Token} (stepped : draft.step token = some next) :
    next.begun ≤ draft.begun + 1 := by
  rcases step_cases stepped with
    ⟨fragment, extended, current, _, rfl⟩ | ⟨current, begun, _, rfl⟩ |
      ⟨fragment, statement, begun, current, _, _, _, rfl⟩
  all_goals simp [Draft.begun, current]

theorem length_statements_of_finish? {program : Program} (finished : draft.finish? = some program) :
    program.statements.length = draft.begun := by
  rw [finish?] at finished
  cases current : draft.current with
  | none =>
      rw [current] at finished
      cases finished
      simp [begun, current]
  | some fragment =>
      rw [current] at finished
      rcases Option.map_eq_some_iff.mp finished with ⟨statement, _, rfl⟩
      simp [begun, current]

end Draft

namespace Reading

variable {reading later : Reading}

theorem Takes.begun_le (takes : reading.Takes later) :
    later.draft.begun + later.rest.length ≤ reading.draft.begun + reading.rest.length := by
  cases takes with
  | @token draft next position gap rest found gapped scanned stepped =>
      have more := Draft.begun_le_of_step stepped
      have positive := Lexeme.length_pos_of_scan scanned
      simp only [List.length_append]
      omega

theorem Reaches.begun_le (reaches : reading.Reaches later) :
    later.draft.begun + later.rest.length ≤ reading.draft.begun + reading.rest.length := by
  induction reaches with
  | refl => exact Nat.le_refl _
  | tail _ takes induction => exact Nat.le_trans takes.begun_le induction

end Reading

namespace Program

theorem length_statements_le_of_parse {text : String} {program : Program}
    (parsed : parse text = .ok program) : program.statements.length ≤ text.toList.length := by
  rcases parse_eq_ok_iff.mp parsed with ⟨last, reaches, _, finished⟩
  have bound := reaches.begun_le
  have none : (Reading.start text.toList).draft.begun = 0 := rfl
  have all : (Reading.start text.toList).rest = text.toList := rfl
  rw [Draft.length_statements_of_finish? finished]
  rw [none, all] at bound
  omega

theorem length_requests_le (program : Program) (uri : String) :
    (program.requests uri).length ≤ program.imports.length := by
  rw [requests_eq, List.length_map]
  calc program.paths.length
      ≤ (program.imports.map ImportStatement.path).length := (eraseDups_sublist _).length_le
    _ = program.imports.length := List.length_map _

end Program

namespace Module

theorem length_imports_le_of_ofBytes {configuration : Configuration} {uri : String} {bytes : Bytes}
    {module : Module} (read : ofBytes configuration uri bytes = .ok module) :
    module.table.imports.length ≤ bytes.length := by
  rcases ofText_of_ofBytes_eq_ok read with ⟨text, decoded, readText⟩
  rcases eq_of_ofText_eq_ok readText with ⟨program, readProgram, _, rfl⟩
  rcases Program.exists_imports_of_ofText readProgram with ⟨parsed, parses, same⟩
  calc (program.requests uri).length
      ≤ program.imports.length := program.length_requests_le uri
    _ = parsed.imports.length := by rw [same]
    _ ≤ parsed.statements.length := List.length_filterMap_le ..
    _ ≤ text.toList.length := Program.length_statements_le_of_parse parses
    _ ≤ bytes.length := Charset.length_le_of_decodeNamed decoded

end Module

end ServiceModules
