import ServiceModules.Symbol.Calls

/-!
Symbol tables are written once. Whatever is called on a table, in whatever order, a declared name
keeps its first symbol and its place, an import request keeps everything but its target, and a
target that is there stays. A call that fails leaves the table as it was.
-/

namespace ServiceModules

namespace SymbolTable

variable {table earlier later : SymbolTable} {calls : List Call}

/-! ## Programs in place -/

namespace InPlace

theorem run_get_bind {fault α : Type} (program : SymbolTable → InPlace fault α)
    (table : SymbolTable) :
    (get >>= program).run.run table = (program table).run.run table := rfl

theorem run_adapt {fault other α β : Type} (change : fault → other) (answer : α → β)
    (program : InPlace fault α) (table : SymbolTable) :
    ((answer <$> program).adapt change).run.run table =
      (((program.run.run table).1.map answer).mapError change, (program.run.run table).2) := by
  unfold ExceptT.adapt ExceptT.run ExceptT.mk
  simp only [Functor.map, ExceptT.map, ExceptT.mk, StateT.run, StateT.bind, StateT.map, bind, pure]
  rcases program table with ⟨_ | _, _⟩ <;> rfl

theorem run_declare (table : SymbolTable) (symbol : Symbol) :
    (declare symbol).run.run table =
      match table.lookup symbol.name with
      | some previous => (.error ⟨symbol.name, symbol.location, previous.location⟩, table)
      | none => (.ok (), { table with declared := table.declared ++ [symbol] }) := by
  rw [declare, run_get_bind]
  cases table.lookup symbol.name <;> rfl

theorem run_resolveImport (table : SymbolTable) (index : Int) (target : String) :
    (resolveImport index target).run.run table =
      match (table.requestPlace index).bind fun place =>
        (table.imports[place]?).map fun request => (place, request) with
      | none => (.error .noSuchRequest, table)
      | some (place, request) =>
        match request.target with
        | some bound =>
          if bound = target then (.ok request, table)
          else (.error (.bound request.path table.uri bound), table)
        | none =>
          (.ok (request.bind target),
            { table with imports := table.imports.set place (request.bind target) }) := by
  rw [resolveImport, run_get_bind]
  cases table.requestPlace index with
  | none => rfl
  | some place =>
      dsimp only [Option.bind]
      cases table.imports[place]? with
      | none => rfl
      | some request =>
          dsimp only [Option.map]
          cases request.target with
          | none => rfl
          | some bound =>
              dsimp only
              split <;> rfl

end InPlace

/-! ## One call -/

theorem Call.perform_declare (table : SymbolTable) (symbol : Symbol) :
    (Call.declare symbol).perform table =
      match table.lookup symbol.name with
      | some previous =>
        (.error (.duplicate ⟨symbol.name, symbol.location, previous.location⟩), table)
      | none => (.ok .done, { table with declared := table.declared ++ [symbol] }) := by
  rw [perform, program, InPlace.run_adapt, InPlace.run_declare]
  cases table.lookup symbol.name <;> rfl

/-- A number designates a request when it is its place, counted from the front, or when it is
negative and counts from the end. -/
def Designates (table : SymbolTable) (index : Int) (place : Nat) : Prop :=
  place < table.imports.length ∧ (index = place ∨ index = (place : Int) - table.imports.length)

theorem requestPlace_eq_some_iff {index : Int} {place : Nat} :
    table.requestPlace index = some place ↔ table.Designates index place := by
  simp only [requestPlace, Designates, Bool.and_eq_true, decide_eq_true_eq,
    Option.ite_none_right_eq_some, Option.some.injEq]
  split <;> omega

section Binding

variable {index : Int} {place : Nat} {request : ImportRequest}

theorem perform_of_outside (nowhere : ∀ place, ¬ table.Designates index place) (target : String) :
    (Call.resolveImport index target).perform table =
      (.error (.unbound .noSuchRequest), table) := by
  have noPlace : table.requestPlace index = none :=
    Option.eq_none_iff_forall_ne_some.mpr fun place isPlace =>
      nowhere place (requestPlace_eq_some_iff.mp isPlace)
  rw [Call.perform, Call.program, InPlace.run_adapt, InPlace.run_resolveImport, noPlace]
  rfl

theorem perform_of_resolved (designates : table.Designates index place)
    (isRequest : table.imports[place]? = some request) {bound : String}
    (isBound : request.target = some bound) (target : String) :
    (Call.resolveImport index target).perform table =
      (if bound = target then .ok (.request request)
        else .error (.unbound (.bound request.path table.uri bound)), table) := by
  rw [Call.perform, Call.program, InPlace.run_adapt, InPlace.run_resolveImport,
    requestPlace_eq_some_iff.mpr designates]
  simp only [Option.bind_some, isRequest, Option.map_some, isBound]
  split <;> rfl

theorem perform_of_unresolved (designates : table.Designates index place)
    (isRequest : table.imports[place]? = some request) (unresolved : request.target = none)
    (target : String) :
    (Call.resolveImport index target).perform table =
      (.ok (.request (request.bind target)),
        { table with imports := table.imports.set place (request.bind target) }) := by
  rw [Call.perform, Call.program, InPlace.run_adapt, InPlace.run_resolveImport,
    requestPlace_eq_some_iff.mpr designates]
  simp only [Option.bind_some, isRequest, Option.map_some, unresolved]
  rfl

end Binding

inductive Performs (table : SymbolTable) :
    Call → Except CallFault Answer → SymbolTable → Prop
  | declared {symbol : Symbol} (new : table.lookup symbol.name = none) :
      Performs table (.declare symbol) (.ok .done)
        { table with declared := table.declared ++ [symbol] }
  | duplicate {symbol previous : Symbol} (known : table.lookup symbol.name = some previous) :
      Performs table (.declare symbol)
        (.error (.duplicate ⟨symbol.name, symbol.location, previous.location⟩)) table
  | looked {name : String} :
      Performs table (.lookup name) (.ok (.symbol (table.lookup name))) table
  | added {request : ImportRequest} :
      Performs table (.addImport request) (.ok .done)
        { table with imports := table.imports ++ [request] }
  | resolved {index : Int} {target : String} {place : Nat} {request : ImportRequest}
      (designates : table.Designates index place)
      (isRequest : table.imports[place]? = some request) (unresolved : request.target = none) :
      Performs table (.resolveImport index target) (.ok (.request (request.bind target)))
        { table with imports := table.imports.set place (request.bind target) }
  | again {index : Int} {target : String} {place : Nat} {request : ImportRequest}
      (designates : table.Designates index place)
      (isRequest : table.imports[place]? = some request) (same : request.target = some target) :
      Performs table (.resolveImport index target) (.ok (.request request)) table
  | refused {index : Int} {target bound : String} {place : Nat} {request : ImportRequest}
      (designates : table.Designates index place)
      (isRequest : table.imports[place]? = some request) (isBound : request.target = some bound)
      (different : bound ≠ target) :
      Performs table (.resolveImport index target)
        (.error (.unbound (.bound request.path table.uri bound))) table
  | outside {index : Int} {target : String} (nowhere : ∀ place, ¬ table.Designates index place) :
      Performs table (.resolveImport index target) (.error (.unbound .noSuchRequest)) table

theorem performs_resolveImport (table : SymbolTable) (index : Int) (target : String) :
    Performs table (.resolveImport index target)
      ((Call.resolveImport index target).perform table).1
      ((Call.resolveImport index target).perform table).2 := by
  by_cases somewhere : ∃ place, table.Designates index place
  · obtain ⟨place, designates⟩ := somewhere
    obtain ⟨request, isRequest⟩ : ∃ request, table.imports[place]? = some request :=
      ⟨_, List.getElem?_eq_getElem designates.1⟩
    cases isBound : request.target with
    | none =>
        rw [perform_of_unresolved designates isRequest isBound]
        exact .resolved designates isRequest isBound
    | some bound =>
        rw [perform_of_resolved designates isRequest isBound]
        by_cases same : bound = target
        · rw [if_pos same]
          exact .again designates isRequest (same ▸ isBound)
        · rw [if_neg same]
          exact .refused designates isRequest isBound same
  · have nowhere := not_exists.mp somewhere
    rw [perform_of_outside nowhere]
    exact .outside nowhere

theorem performs_perform (call : Call) (table : SymbolTable) :
    Performs table call (call.perform table).1 (call.perform table).2 := by
  cases call with
  | declare symbol =>
      rw [Call.perform_declare]
      cases found : table.lookup symbol.name with
      | none => exact .declared found
      | some previous => exact .duplicate found
  | lookup name => exact .looked
  | addImport request => exact .added
  | resolveImport index target => exact performs_resolveImport table index target

/-! ## Growing tables -/

/-- What stays of a request while its table changes: everything but a target that it lacks. -/
structure IsKeptAs (request kept : ImportRequest) : Prop where
  path : kept.path = request.path
  symbols : kept.symbols = request.symbols
  location : kept.location = request.location
  target : ∀ uri, request.target = some uri → kept = request

theorem IsKeptAs.refl (request : ImportRequest) : IsKeptAs request request :=
  ⟨rfl, rfl, rfl, fun _ _ => rfl⟩

theorem isKeptAs_bind {request : ImportRequest} (unresolved : request.target = none)
    (target : String) : IsKeptAs request (request.bind target) where
  path := rfl
  symbols := rfl
  location := rfl
  target := by
    intro uri isBound
    rw [unresolved] at isBound
    cases isBound

theorem IsKeptAs.trans {request kept last : ImportRequest} (first : IsKeptAs request kept)
    (second : IsKeptAs kept last) : IsKeptAs request last where
  path := second.path.trans first.path
  symbols := second.symbols.trans first.symbols
  location := second.location.trans first.location
  target := by
    intro uri isBound
    have same := first.target uri isBound
    rw [← same] at isBound
    exact (second.target uri isBound).trans same

structure GrowsTo (earlier later : SymbolTable) : Prop where
  uri : later.uri = earlier.uri
  declared : earlier.declared <+: later.declared
  lookup : ∀ name symbol, earlier.lookup name = some symbol → later.lookup name = some symbol
  request : ∀ (place : Nat) request, earlier.imports[place]? = some request →
    ∃ kept, later.imports[place]? = some kept ∧ IsKeptAs request kept

theorem GrowsTo.refl (table : SymbolTable) : table.GrowsTo table where
  uri := rfl
  declared := List.prefix_refl _
  lookup := fun _ _ => id
  request := fun _ request isRequest => ⟨request, isRequest, .refl request⟩

theorem GrowsTo.trans (first : table.GrowsTo earlier) (second : earlier.GrowsTo later) :
    table.GrowsTo later where
  uri := second.uri.trans first.uri
  declared := first.declared.trans second.declared
  lookup := fun name symbol found => second.lookup name symbol (first.lookup name symbol found)
  request := by
    intro place request isRequest
    obtain ⟨kept, isKept, keeps⟩ := first.request place request isRequest
    obtain ⟨last, isLast, keepsLast⟩ := second.request place kept isKept
    exact ⟨last, isLast, keeps.trans keepsLast⟩

theorem growsTo_declare (table : SymbolTable) (symbol : Symbol) :
    table.GrowsTo { table with declared := table.declared ++ [symbol] } where
  uri := rfl
  declared := List.prefix_append _ _
  lookup := by
    intro name found isFound
    rw [SymbolTable.lookup] at isFound ⊢
    rw [List.find?_append, isFound]
    rfl
  request := fun _ request isRequest => ⟨request, isRequest, .refl request⟩

theorem growsTo_addImport (table : SymbolTable) (request : ImportRequest) :
    table.GrowsTo { table with imports := table.imports ++ [request] } where
  uri := rfl
  declared := List.prefix_refl _
  lookup := fun _ _ => id
  request := by
    intro place other isOther
    have inside := (List.getElem?_eq_some_iff.mp isOther).1
    exact ⟨other, by rw [List.getElem?_append_left inside, isOther], .refl other⟩

theorem growsTo_bind {place : Nat} {request : ImportRequest}
    (isRequest : table.imports[place]? = some request) (unresolved : request.target = none)
    (target : String) :
    table.GrowsTo { table with imports := table.imports.set place (request.bind target) } where
  uri := rfl
  declared := List.prefix_refl _
  lookup := fun _ _ => id
  request := by
    intro other kept isKept
    by_cases same : place = other
    · subst other
      rw [isRequest] at isKept
      cases isKept
      have inside := (List.getElem?_eq_some_iff.mp isRequest).1
      exact ⟨_, List.getElem?_set_self inside, isKeptAs_bind unresolved target⟩
    · exact ⟨kept, by rw [List.getElem?_set_ne same, isKept], .refl kept⟩

theorem growsTo_perform (call : Call) (table : SymbolTable) :
    table.GrowsTo (call.perform table).2 := by
  have performs := performs_perform call table
  generalize (call.perform table).1 = outcome, (call.perform table).2 = after at performs ⊢
  cases performs with
  | declared _ => exact growsTo_declare table _
  | added => exact growsTo_addImport table _
  | resolved _ isRequest unresolved => exact growsTo_bind isRequest unresolved _
  | duplicate _ => exact .refl table
  | looked => exact .refl table
  | again _ _ _ => exact .refl table
  | refused _ _ _ _ => exact .refl table
  | outside _ => exact .refl table

/-! ## Runs -/

def moment (table : SymbolTable) (calls : List Call) (count : Nat) : SymbolTable :=
  table.after (calls.take count)

theorem after_append (table : SymbolTable) (calls more : List Call) :
    table.after (calls ++ more) = (table.after calls).after more := List.foldl_append

theorem growsTo_after (table : SymbolTable) (calls : List Call) :
    table.GrowsTo (table.after calls) := by
  induction calls generalizing table with
  | nil => exact .refl table
  | cons call calls induction => exact (growsTo_perform call table).trans (induction _)

theorem growsTo_moment (table : SymbolTable) (calls : List Call) {first last : Nat}
    (inOrder : first ≤ last) :
    (table.moment calls first).GrowsTo (table.moment calls last) := by
  obtain ⟨more, whole⟩ : calls.take first <+: calls.take last := List.take_prefix_take_left inOrder
  rw [moment, moment, ← whole, after_append]
  exact growsTo_after _ more

theorem moment_succ {count : Nat} {call : Call} (isCall : calls[count]? = some call) :
    table.moment calls (count + 1) = (call.perform (table.moment calls count)).2 := by
  rw [moment, List.take_add_one, isCall, after_append]
  rfl

theorem moment_succ_of_none {count : Nat} (ended : calls[count]? = none) :
    table.moment calls (count + 1) = table.moment calls count := by
  rw [moment, List.take_add_one, ended, Option.toList_none, List.append_nil]
  rfl

def ChangesAt (table : SymbolTable) (calls : List Call) (place count : Nat) : Prop :=
  ∃ request, (table.moment calls count).imports[place]? = some request ∧
    (table.moment calls (count + 1)).imports[place]? ≠ some request

/-! ## What is promised -/

structure IsSafe (call : Call) (table : SymbolTable) : Prop where
  failed : ∀ fault, (call.perform table).1 = .error fault → (call.perform table).2 = table
  looked : ∀ name, call = .lookup name →
    call.perform table = (.ok (.symbol (table.lookup name)), table)
  added : ∀ request, call = .addImport request →
    call.perform table = (.ok .done, { table with imports := table.imports ++ [request] })
  /-- The first symbol of a name is put behind those that are there. -/
  declared : ∀ symbol, call = .declare symbol → table.lookup symbol.name = none →
    call.perform table = (.ok .done, { table with declared := table.declared ++ [symbol] })
  duplicate : ∀ symbol previous, call = .declare symbol →
    table.lookup symbol.name = some previous →
      (call.perform table).1 =
        .error (.duplicate ⟨symbol.name, symbol.location, previous.location⟩)
  outside : ∀ index target, call = .resolveImport index target →
    (∀ place, ¬ table.Designates index place) →
      (call.perform table).1 = .error (.unbound .noSuchRequest)
  again : ∀ index target place request, call = .resolveImport index target →
    table.Designates index place → table.imports[place]? = some request →
      request.target = some target → call.perform table = (.ok (.request request), table)
  rebound : ∀ index target place request bound, call = .resolveImport index target →
    table.Designates index place → table.imports[place]? = some request →
      request.target = some bound → bound ≠ target →
        (call.perform table).1 = .error (.unbound (.bound request.path table.uri bound))
  /-- Binding a request that lacks a target succeeds and changes nothing else. -/
  bound : ∀ index target place request, call = .resolveImport index target →
    table.Designates index place → table.imports[place]? = some request →
      request.target = none →
        ∃ after, call.perform table = (.ok (.request (request.bind target)), after) ∧
          after.imports[place]? = some (request.bind target) ∧
          (∀ other, other ≠ place → after.imports[other]? = table.imports[other]?) ∧
          after.declared = table.declared ∧ after.uri = table.uri

/-- What is promised of a sequence of calls. -/
structure IsWrittenOnce (table : SymbolTable) (calls : List Call) : Prop where
  safe : ∀ count call, calls[count]? = some call → IsSafe call (table.moment calls count)
  grows : ∀ first last, first ≤ last →
    (table.moment calls first).GrowsTo (table.moment calls last)
  /-- A request changes only when it lacks a target and is bound, and never again. -/
  changes : ∀ place count, table.ChangesAt calls place count →
    ∃ request index target, (table.moment calls count).imports[place]? = some request ∧
      request.target = none ∧ calls[count]? = some (.resolveImport index target) ∧
      (table.moment calls count).Designates index place ∧
      ∀ later, count < later →
        (table.moment calls later).imports[place]? = some (request.bind target)
  once : ∀ place first second, table.ChangesAt calls place first →
    table.ChangesAt calls place second → first = second

theorem failed_of_performs {call : Call} {fault : CallFault} {after : SymbolTable}
    (performs : Performs table call (.error fault) after) : after = table := by
  cases performs with
  | duplicate _ => rfl
  | refused _ _ _ _ => rfl
  | outside _ => rfl

theorem isSafe (call : Call) (table : SymbolTable) : IsSafe call table where
  failed := by
    intro fault failed
    have performs := performs_perform call table
    rw [failed] at performs
    exact failed_of_performs performs
  looked := by
    rintro name rfl
    rfl
  added := by
    rintro request rfl
    rfl
  declared := by
    rintro symbol rfl new
    rw [Call.perform_declare, new]
  duplicate := by
    rintro symbol previous rfl known
    rw [Call.perform_declare, known]
  outside := by
    rintro index target rfl nowhere
    rw [perform_of_outside nowhere]
  again := by
    rintro index target place request rfl designates isRequest same
    rw [perform_of_resolved designates isRequest same, if_pos rfl]
  rebound := by
    rintro index target place request bound rfl designates isRequest isBound different
    rw [perform_of_resolved designates isRequest isBound, if_neg different]
  bound := by
    rintro index target place request rfl designates isRequest unresolved
    refine ⟨_, perform_of_unresolved designates isRequest unresolved target,
      List.getElem?_set_self designates.1, fun other different => ?_, rfl, rfl⟩
    exact List.getElem?_set_ne different.symm

theorem Performs.binds {call : Call} {outcome : Except CallFault Answer} {after : SymbolTable}
    {place : Nat} {request : ImportRequest} (performs : Performs table call outcome after)
    (isRequest : table.imports[place]? = some request)
    (changed : after.imports[place]? ≠ some request) :
    ∃ index target, call = .resolveImport index target ∧ table.Designates index place ∧
      request.target = none ∧ after.imports[place]? = some (request.bind target) := by
  cases performs with
  | declared _ => exact absurd isRequest changed
  | duplicate _ => exact absurd isRequest changed
  | looked => exact absurd isRequest changed
  | again _ _ _ => exact absurd isRequest changed
  | refused _ _ _ _ => exact absurd isRequest changed
  | outside _ => exact absurd isRequest changed
  | added =>
      have inside := (List.getElem?_eq_some_iff.mp isRequest).1
      rw [List.getElem?_append_left inside] at changed
      exact absurd isRequest changed
  | @resolved index target bound other designates isOther unresolved =>
      by_cases same : bound = place
      · subst bound
        rw [isRequest] at isOther
        cases isOther
        exact ⟨index, target, rfl, designates, unresolved, List.getElem?_set_self designates.1⟩
      · rw [List.getElem?_set_ne same] at changed
        exact absurd isRequest changed

theorem exists_binding_of_changesAt {place count : Nat}
    (changes : table.ChangesAt calls place count) :
    ∃ request index target, (table.moment calls count).imports[place]? = some request ∧
      request.target = none ∧ calls[count]? = some (.resolveImport index target) ∧
      (table.moment calls count).Designates index place ∧
      ∀ later, count < later →
        (table.moment calls later).imports[place]? = some (request.bind target) := by
  obtain ⟨request, isRequest, changed⟩ := changes
  cases isCall : calls[count]? with
  | none =>
      rw [moment_succ_of_none isCall] at changed
      exact absurd isRequest changed
  | some call =>
      rw [moment_succ isCall] at changed
      obtain ⟨index, target, rfl, designates, unresolved, isBound⟩ :=
        (performs_perform call _).binds isRequest changed
      refine ⟨request, index, target, isRequest, unresolved, rfl, designates,
        fun later behind => ?_⟩
      rw [← moment_succ isCall] at isBound
      obtain ⟨kept, isKept, keeps⟩ := (growsTo_moment table calls behind).request place _ isBound
      rw [isKept, keeps.target target rfl]

theorem not_changesAt_of_lt {place first second : Nat} (changes : table.ChangesAt calls place first)
    (behind : first < second) : ¬ table.ChangesAt calls place second := by
  rintro ⟨request, isRequest, changed⟩
  obtain ⟨_, _, _, _, _, _, _, bound⟩ := exists_binding_of_changesAt changes
  rw [bound second behind] at isRequest
  rw [bound (second + 1) (Nat.lt_succ_of_lt behind)] at changed
  exact changed isRequest

/-- All sequences of calls on all tables write every slot once. -/
theorem slots_written_once (table : SymbolTable) (calls : List Call) :
    table.IsWrittenOnce calls where
  safe := fun count call _ => isSafe call _
  grows := fun _ _ => growsTo_moment table calls
  changes := fun _ _ => exists_binding_of_changesAt
  once := by
    intro place first second changesFirst changesSecond
    rcases Nat.lt_trichotomy first second with before | same | behind
    · exact absurd changesSecond (not_changesAt_of_lt changesFirst before)
    · exact same
    · exact absurd changesFirst (not_changesAt_of_lt changesSecond behind)

/-! A request is bound by its place from the end and then, without a change, by its place from the
front. It is not bound to another module, and behind the end there is no request. -/

example :
    let unresolved : ImportRequest := ⟨⟨0, ["lib"]⟩, [], none, none⟩
    SymbolTable.after ⟨"memory:///main.mg", [], [unresolved]⟩
        [.resolveImport (-1) "memory:///lib.mg", .resolveImport 0 "memory:///lib.mg",
          .resolveImport 0 "memory:///other.mg", .resolveImport 1 "memory:///lib.mg"] =
      ⟨"memory:///main.mg", [], [unresolved.bind "memory:///lib.mg"]⟩ := by
  decide

end SymbolTable

end ServiceModules
