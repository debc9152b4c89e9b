import ServiceModules.Module.Cache

/-!
The result of a crawl: the records of modules by their identifiers, in the order in which they were
reached. A record that comes again takes the place of the earlier one.
-/

namespace ServiceModules

structure CrawlResult where
  entries : List (String × ModuleRecord)
deriving Repr, Inhabited

namespace CrawlResult

def empty : CrawlResult := ⟨[]⟩

def get? (result : CrawlResult) (uri : String) : Option ModuleRecord := result.entries.lookup uri

def contains (result : CrawlResult) (uri : String) : Bool := (result.get? uri).isSome

def insertInto (record : ModuleRecord) :
    List (String × ModuleRecord) → List (String × ModuleRecord)
  | [] => [(record.uri, record)]
  | entry :: rest =>
    if entry.1 = record.uri then (entry.1, record) :: rest else entry :: insertInto record rest

def insert (result : CrawlResult) (record : ModuleRecord) : CrawlResult :=
  ⟨insertInto record result.entries⟩

def uris (result : CrawlResult) : List String := result.entries.map Prod.fst

def records (result : CrawlResult) : List ModuleRecord := result.entries.map Prod.snd

def size (result : CrawlResult) : Nat := result.entries.length

def describe (result : CrawlResult) : String :=
  "CrawlResult(" ++ Text.quotedList result.uris ++ ")"

end CrawlResult

end ServiceModules
