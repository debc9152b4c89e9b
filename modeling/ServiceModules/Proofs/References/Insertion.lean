import ServiceModules.References
import ServiceModules.Proofs.Upsert

/-!
Adding places to references. References are a map of maps: places are added to those of one symbol
and of no other, an identifier and a symbol are a key once, and no place is lost or doubled.
-/

namespace ServiceModules

namespace SymbolSites

variable {symbol other : Symbol} {added : List Location} {entries : List SymbolSites}

theorem insert_eq_upsert :
    insert symbol added entries =
      upsert SymbolSites.symbol symbol ⟨symbol, added⟩
        (fun entry => { entry with sites := entry.sites ++ added }) entries := by
  induction entries with
  | nil => rfl
  | cons entry rest induction => rw [insert, upsert, induction]

def find? (symbol : Symbol) (entries : List SymbolSites) : Option (List Location) :=
  (entries.find? fun entry => entry.symbol = symbol).map SymbolSites.sites

theorem find?_insert_self :
    find? symbol (insert symbol added entries) =
      some ((find? symbol entries).getD [] ++ added) := by
  rw [find?, insert_eq_upsert, find?_upsert_self, find?]
  · cases entries.find? fun entry => entry.symbol = symbol <;> rfl
  · rfl
  · exact fun _ => rfl

theorem find?_insert_of_ne (different : other ≠ symbol) :
    find? other (insert symbol added entries) = find? other entries := by
  rw [find?, insert_eq_upsert, find?_upsert_of_ne, find?]
  · rfl
  · exact fun _ => rfl
  · exact different

theorem sites_insert_perm :
    ((insert symbol added entries).flatMap SymbolSites.sites).Perm
      (entries.flatMap SymbolSites.sites ++ added) := by
  rw [insert_eq_upsert]
  exact flatMap_upsert_perm rfl fun _ _ => .refl _

end SymbolSites

namespace References

variable {symbol other : Symbol} {uri : String} {added : List Location}
  {references : References}

def sitesOf? (references : References) (uri : String) (symbol : Symbol) :
    Option (List Location) :=
  (references.find? fun group => group.uri = uri).bind fun group =>
    SymbolSites.find? symbol group.symbols

def sites (references : References) : List Location :=
  references.flatMap fun group => group.symbols.flatMap SymbolSites.sites

/-- Every module has one group, which is not empty and lists every symbol of the module once, and
no symbol of another one. -/
structure IsMap (references : References) : Prop where
  uris : (references.map ModuleSites.uri).Nodup
  symbols : ∀ group ∈ references, (group.symbols.map SymbolSites.symbol).Nodup
  nonempty : ∀ group ∈ references, group.symbols ≠ []
  owned : ∀ group ∈ references, ∀ entry ∈ group.symbols, entry.symbol.moduleUri = group.uri

theorem insert_eq_upsert :
    insert symbol added references =
      upsert ModuleSites.uri symbol.moduleUri ⟨symbol.moduleUri, [⟨symbol, added⟩]⟩
        (fun group => { group with symbols := SymbolSites.insert symbol added group.symbols })
        references := by
  induction references with
  | nil => rfl
  | cons group rest induction => rw [insert, upsert, induction]

theorem sitesOf?_insert_self :
    (insert symbol added references).sitesOf? symbol.moduleUri symbol =
      some ((references.sitesOf? symbol.moduleUri symbol).getD [] ++ added) := by
  rw [sitesOf?, insert_eq_upsert, find?_upsert_self, sitesOf?]
  · cases references.find? fun group => group.uri = symbol.moduleUri with
    | none =>
        show SymbolSites.find? symbol (SymbolSites.insert symbol added []) = _
        rw [SymbolSites.find?_insert_self]
        rfl
    | some group => exact SymbolSites.find?_insert_self
  · rfl
  · exact fun _ => rfl

theorem sitesOf?_insert_of_ne (different : other ≠ symbol) :
    (insert symbol added references).sitesOf? uri other = references.sitesOf? uri other := by
  rw [sitesOf?, insert_eq_upsert, sitesOf?]
  by_cases same : uri = symbol.moduleUri
  · rw [same, find?_upsert_self]
    · cases references.find? fun group => group.uri = symbol.moduleUri with
      | none =>
          show SymbolSites.find? other (SymbolSites.insert symbol added []) = _
          rw [SymbolSites.find?_insert_of_ne different]
          rfl
      | some group => exact SymbolSites.find?_insert_of_ne different
    · rfl
    · exact fun _ => rfl
  · rw [find?_upsert_of_ne]
    · rfl
    · exact fun _ => rfl
    · exact same

theorem sites_insert_perm :
    (insert symbol added references).sites.Perm (references.sites ++ added) := by
  rw [sites, insert_eq_upsert]
  exact flatMap_upsert_perm (List.append_nil added) fun _ _ => SymbolSites.sites_insert_perm

theorem isMap_nil : IsMap [] where
  uris := List.nodup_nil
  symbols := by simp
  nonempty := by simp
  owned := by simp

theorem mem_entries_insert {group : ModuleSites} {entry : SymbolSites}
    (member : group ∈ insert symbol added references) (listed : entry ∈ group.symbols) :
    (group.uri = symbol.moduleUri ∧ entry.symbol = symbol) ∨
      ∃ before ∈ references, before.uri = group.uri ∧
        ∃ entryBefore ∈ before.symbols, entryBefore.symbol = entry.symbol := by
  rw [insert_eq_upsert] at member
  rcases mem_upsert member with old | rfl | ⟨before, beforeMember, same, rfl⟩
  · exact .inr ⟨group, old, rfl, entry, listed, rfl⟩
  · rw [List.mem_singleton.mp listed]
    exact .inl ⟨rfl, rfl⟩
  · rw [SymbolSites.insert_eq_upsert] at listed
    rcases mem_upsert listed with old | rfl | ⟨entryBefore, entryMember, _, rfl⟩
    · exact .inr ⟨before, beforeMember, rfl, entry, old, rfl⟩
    · exact .inl ⟨same, rfl⟩
    · exact .inr ⟨before, beforeMember, rfl, entryBefore, entryMember, rfl⟩

theorem IsMap.insert (isMap : references.IsMap) (symbol : Symbol) (added : List Location) :
    (insert symbol added references).IsMap where
  uris := by
    rw [insert_eq_upsert]
    exact nodup_map_upsert rfl (fun _ => rfl) isMap.uris
  symbols := by
    intro group member
    rw [insert_eq_upsert] at member
    rcases mem_upsert member with old | rfl | ⟨before, beforeMember, _, rfl⟩
    · exact isMap.symbols group old
    · exact List.nodup_singleton _
    · show ((SymbolSites.insert symbol added before.symbols).map SymbolSites.symbol).Nodup
      rw [SymbolSites.insert_eq_upsert]
      exact nodup_map_upsert rfl (fun _ => rfl) (isMap.symbols before beforeMember)
  nonempty := by
    intro group member
    rw [insert_eq_upsert] at member
    rcases mem_upsert member with old | rfl | ⟨before, _, _, rfl⟩
    · exact isMap.nonempty group old
    · exact List.cons_ne_nil _ _
    · show SymbolSites.insert symbol added before.symbols ≠ []
      rw [SymbolSites.insert_eq_upsert]
      exact upsert_ne_nil
  owned := by
    intro group member entry listed
    rcases mem_entries_insert member listed with
      ⟨sameUri, sameSymbol⟩ | ⟨before, beforeMember, sameUri, entryBefore, listedBefore, sameSymbol⟩
    · rw [sameUri, sameSymbol]
    · rw [← sameUri, ← sameSymbol]
      exact isMap.owned before beforeMember entryBefore listedBefore

end References

end ServiceModules
