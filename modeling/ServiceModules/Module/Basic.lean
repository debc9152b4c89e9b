import ServiceModules.Charset.Basic
import ServiceModules.Configuration
import ServiceModules.Fault
import ServiceModules.Program.Parse
import ServiceModules.Program.Symbols

/-!
Modules. A module has an identifier and a text; its program and its symbol table follow from the
text, until the import requests of the table are bound to other modules.
-/

namespace ServiceModules

structure Module where
  uri : String
  text : String
  program : Program
  table : SymbolTable
deriving Repr, Inhabited

/-- Reads the program in the text of the module `uri`. -/
def Program.ofText (keepsDocumentation : Bool) (uri text : String) : Except Fault Program :=
  match Program.parse text keepsDocumentation with
  | .error rejection => .error (.rejected uri text rejection)
  | .ok program => .ok program

namespace Module

def ofText (keepsDocumentation : Bool) (uri text : String) : Except Fault Module :=
  match Program.ofText keepsDocumentation uri text with
  | .error fault => .error fault
  | .ok program =>
    match program.symbolTable uri with
    | .error clash => .error (.clash clash (some text))
    | .ok table => .ok ⟨uri, text, program, table⟩

def ofBytes (configuration : Configuration) (uri : String) (bytes : Bytes) :
    Except Fault Module :=
  match Charset.decodeNamed configuration.charset bytes with
  | .ok text => ofText configuration.keepsDocumentation uri text
  | .error (.decode fault) => .error (.undecodable uri configuration.charset fault.reason)
  | .error fault => .error (.charset fault)

/-- A module whose content is handed in; a text goes through the configured charset as well. -/
def ofContent (configuration : Configuration) (uri : String) (content : Content) :
    Except Fault Module :=
  match content.encode configuration.charset with
  | .error fault => .error (.charset fault)
  | .ok bytes => ofBytes configuration uri bytes

def withImports (module : Module) (imports : List ImportRequest) : Module :=
  { module with table := { module.table with imports := imports } }

def dependencies (module : Module) : List String := module.table.dependencies

def describe (module : Module) : String :=
  "ModuleRecord(" ++ module.uri ++ ", declared="
    ++ Text.quotedList (Text.sorted module.table.declaredNames) ++ ")"

end Module

end ServiceModules
