import ServiceModules.Module.Basic

/-!
The cache of modules. A module that is loaded gets a record with a number of its own, so that two
records of the same text can be told apart. The cache holds records by their identifiers; a record
that is in the cache is never replaced.
-/

namespace ServiceModules

structure ModuleRecord where
  module : Module
  number : Nat
deriving Repr, Inhabited

namespace ModuleRecord

def uri (record : ModuleRecord) : String := record.module.uri

end ModuleRecord

structure ModuleCache where
  entries : List (String × ModuleRecord)
  /-- The number of the next record. -/
  next : Nat
deriving Repr, Inhabited

namespace ModuleCache

def empty : ModuleCache := ⟨[], 0⟩

def get? (cache : ModuleCache) (uri : String) : Option ModuleRecord := cache.entries.lookup uri

def contains (cache : ModuleCache) (uri : String) : Bool := (cache.get? uri).isSome

def size (cache : ModuleCache) : Nat := cache.entries.length

def uris (cache : ModuleCache) : List String := cache.entries.map Prod.fst

def record (cache : ModuleCache) (module : Module) : ModuleRecord × ModuleCache :=
  (⟨module, cache.next⟩, { cache with next := cache.next + 1 })

/-- Keeps a record unless there is one with its identifier, and gives the one that is kept. -/
def insertIfNew (cache : ModuleCache) (record : ModuleRecord) : ModuleRecord × ModuleCache :=
  match cache.get? record.uri with
  | some kept => (kept, cache)
  | none => (record, { cache with entries := cache.entries ++ [(record.uri, record)] })

def clear (cache : ModuleCache) : ModuleCache := { cache with entries := [] }

end ModuleCache

end ServiceModules
