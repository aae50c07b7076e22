import PhpScaffold.Config.Load
import PhpScaffold.Proofs.Except
import PhpScaffold.Proofs.Name
import PhpScaffold.Proofs.Table

/-! Which entry a namespace goes by.  Of the mapped namespaces that it lies in, the longest counts, by whichever entry
spells it first; the settings replace what the composer file maps only where both spell a namespace alike.  So an entry
of the settings counts exactly when the composer file does not spell its namespace in a way that the settings do not. -/

namespace PhpScaffold

namespace Resolver

def target (scope : String) : String := Name.bare scope ++ "\\"

def lead (e : String × String) : String := Name.bare e.1 ++ "\\"

def Covers (scope : String) (e : String × String) : Prop :=
  lead e ≠ "\\" ∧ Text.startsWith (target scope) (lead e)

def toMatch (e : String × String) : Match := ⟨lead e, trimSlashes e.2⟩

instance (scope : String) (e : String × String) : Decidable (Covers scope e) :=
  inferInstanceAs (Decidable (_ ∧ _))

variable {scope : String} {e f w : String × String} {m : Match} {n : Nat} {es : List (String × String)}
  {tier : Tier} {best : Option Match}

@[simp] theorem lead_toMatch : (toMatch e).lead = lead e := rfl

@[simp] theorem directory_toMatch : (toMatch e).directory = trimSlashes e.2 := rfl

theorem match?_eq_some : match? (target scope) e = some m ↔ Covers scope e ∧ m = toMatch e := by
  have refused : (lead e = "\\" || !Text.startsWith (target scope) (lead e)) = true ↔ ¬ Covers scope e := by
    rw [Covers, not_and, ne_eq]
    by_cases empty : lead e = "\\" <;> simp [empty]
  change (if (lead e = "\\" || !Text.startsWith (target scope) (lead e)) = true then none else some (toMatch e)) =
    some m ↔ _
  by_cases covers : Covers scope e
  · rw [if_neg (fun h => refused.1 h covers), Option.some.injEq, eq_comm]
    exact (and_iff_right covers).symm
  · rw [if_pos (refused.2 covers)]
    simp [covers]

theorem lead_eq (he : Covers scope e) (hf : Covers scope f) (same : (lead e).length = (lead f).length) :
    lead e = lead f := by
  have first := List.isPrefixOf_iff_prefix.1 he.2
  have second := List.isPrefixOf_iff_prefix.1 hf.2
  rw [← String.length_toList, ← String.length_toList] at same
  exact String.toList_inj.1
    ((List.prefix_of_prefix_length_le first second (Nat.le_of_eq same)).eq_of_length same)

theorem scan_cons (tier : Tier) (target : String) (best : Option Match) (e : String × String)
    (r : List (String × String)) :
    scan tier target best (e :: r) =
      scan tier target ((match? target e).elim best (better tier best)) r := by
  rw [scan, List.filterMap_cons]
  cases match? target e <;> rfl

theorem scan_append (tier : Tier) (target : String) (best : Option Match) (es fs : List (String × String)) :
    scan tier target best (es ++ fs) = scan tier target (scan tier target best es) fs := by
  simp only [scan, List.filterMap_append, List.foldl_append]

theorem better_cases (tier : Tier) (best : Option Match) (m : Match) :
    better tier best m = some m ∨ better tier best m = best := by
  unfold better
  split
  · exact .inl rfl
  · split
    · exact .inl rfl
    · exact .inr rfl

theorem exists_of_scan (h : scan tier (target scope) best es = some m) : best = some m ∨ ∃ e ∈ es, Covers scope e ∧ m = toMatch e := by
  -- the best match so far is either what was there before or one of the entries gone through
  induction es generalizing best with
  | nil => exact .inl h
  | cons e r ih =>
    rw [scan_cons] at h
    obtain kept | ⟨f, hf, found⟩ := ih h
    · cases hit : match? (target scope) e with
      | none =>
        rw [hit] at kept
        exact .inl kept
      | some n =>
        rw [hit, Option.elim_some] at kept
        obtain new | old := better_cases tier best n
        · cases new.symm.trans kept
          exact .inr ⟨e, List.mem_cons_self, match?_eq_some.1 hit⟩
        · exact .inl (old.symm.trans kept)
    · exact .inr ⟨f, List.mem_cons_of_mem e hf, found⟩

theorem forall_scan {P : Match → Prop} (before : ∀ m ∈ best, P m) (h : ∀ f ∈ es, Covers scope f → P (toMatch f)) :
    ∀ m ∈ scan tier (target scope) best es, P m := by
  intro m hm
  obtain old | ⟨f, hf, covers, rfl⟩ := exists_of_scan hm
  · exact before m old
  · exact h f hf covers

theorem scan_eq_self (h : ∀ f ∈ es, Covers scope f → better tier (some m) (toMatch f) = some m) :
    scan tier (target scope) (some m) es = some m := by
  induction es with
  | nil => rfl
  | cons f r ih =>
    obtain ⟨first, rest⟩ := List.forall_mem_cons.1 h
    rw [scan_cons]
    cases found : match? (target scope) f with
    | none => exact ih rest
    | some k =>
      obtain ⟨covers, rfl⟩ := match?_eq_some.1 found
      rw [Option.elim_some, first covers]
      exact ih rest

theorem better_eq_self {k : Match} (le : k.lead.length ≤ m.lead.length)
    (behind : tier = .priority → k.lead.length ≠ m.lead.length) : better tier (some m) k = some m := by
  rw [better, if_neg]
  rintro (longer | ⟨high, same⟩)
  · exact absurd longer (Nat.not_lt_of_le le)
  · exact behind high same

def fits (scope : String) (n : Nat) (e : String × String) : Bool := Covers scope e ∧ (lead e).length = n

theorem fits_iff : fits scope n e ↔ Covers scope e ∧ (lead e).length = n := by
  simp [fits]

theorem length_lt_of_not_fits (le : Covers scope e → (lead e).length ≤ n) (other : ¬fits scope n e) :
    Covers scope e → (lead e).length < n :=
  fun covers => Nat.lt_of_le_of_ne (le covers) fun same => other (fits_iff.2 ⟨covers, same⟩)

theorem scan_normal (most : ∀ f ∈ es, Covers scope f → (lead f).length ≤ n) (found : es.find? (fits scope n) = some w) :
    scan .normal (target scope) none es = some (toMatch w) := by
  obtain ⟨fit, before, after, rfl, others⟩ := List.find?_eq_some_iff_append.1 found
  obtain ⟨covers, long⟩ := fits_iff.1 fit
  have shorter : ∀ m ∈ scan .normal (target scope) none before, m.lead.length < n :=
    forall_scan (by simp) fun f hf =>
      length_lt_of_not_fits (most f (List.mem_append_left _ hf)) (by simpa using others f hf)
  have chosen : better .normal (scan .normal (target scope) none before) (toMatch w) = some (toMatch w) := by
    cases best : scan .normal (target scope) none before with
    | none => rfl
    | some b =>
      have less : b.lead.length < (toMatch w).lead.length := by
        rw [lead_toMatch, long]
        exact shorter b best
      rw [better, if_pos (.inl less)]
  rw [scan_append, scan_cons, match?_eq_some.2 ⟨covers, rfl⟩, Option.elim_some, chosen]
  refine scan_eq_self fun f hf inside => better_eq_self ?_ (by simp)
  rw [lead_toMatch, lead_toMatch, long]
  exact most f (List.mem_append_right _ (List.mem_cons_of_mem w hf)) inside

theorem fits_length_iff (covers : Covers scope e) : fits scope (lead e).length f ↔ lead f = lead e := by
  rw [fits_iff]
  refine ⟨fun fit => lead_eq fit.1 covers fit.2, fun same => ?_⟩
  rw [Covers, same]
  exact ⟨covers, rfl⟩

/-- A namespace goes by the first entry for the longest mapped namespace that it lies in. -/
theorem bestMatch_eq_find? {r : Resolver} (normal : r.mappings.priority.entries = [])
    (mem : e ∈ r.mappings.normal.entries) (covers : Covers scope e)
    (longest : ∀ f ∈ r.mappings.normal.entries, Covers scope f → (lead f).length ≤ (lead e).length) :
    ∃ w, r.mappings.normal.entries.find? (fun f => lead f = lead e) = some w ∧ lead w = lead e ∧
      r.bestMatch scope = some (toMatch w) := by
  have spelled : (r.mappings.normal.entries.find? fun f => lead f = lead e).isSome :=
    List.find?_isSome.2 ⟨e, mem, by simp⟩
  obtain ⟨w, found⟩ := Option.isSome_iff_exists.1 spelled
  have fit : r.mappings.normal.entries.find? (fits scope (lead e).length) = some w := by
    rw [← found]
    refine congrArg (List.find? · _) (funext fun f => ?_)
    rw [Bool.eq_iff_iff, fits_length_iff covers, decide_eq_true_eq]
  refine ⟨w, found, by simpa using List.find?_some found, ?_⟩
  change scan .priority (target scope) (scan .normal (target scope) none r.mappings.normal.entries) _ = _
  rw [normal, scan_normal longest fit]
  rfl

theorem bestMatch_bare (r : Resolver) (scope : String) : r.bestMatch (Name.bare scope) = r.bestMatch scope := by
  simp only [bestMatch, Name.bare_bare]

theorem exists_directory_eq {r : Resolver} (h : r.bestMatch scope = some m) :
    ∃ rest, r.directory scope = m.directory ++ rest := by
  simp only [directory, bestMatch_bare, h]
  split
  · exact ⟨"", by simp⟩
  · exact ⟨"/" ++ slashed (remainder (Name.bare scope) m), by simp [String.append_assoc]⟩

end Resolver

namespace Table

variable {α : Type u} {t u : Table α} {p : String → Bool} {k : String}

/-- Of the merged keys the first with a property is the first table's, where that has one. -/
theorem mem_keys_iff_of_find? (found : (t.insertAll u.entries).keys.find? p = some k) :
    k ∈ u.keys ↔ ∀ l, t.keys.find? p = some l → l ∈ u.keys := by
  obtain ⟨more, merged, given⟩ := exists_keys_insertAll t u.entries
  rw [merged, List.find?_append] at found
  cases first : t.keys.find? p with
  | some l =>
    rw [first, Option.some_or, Option.some.injEq] at found
    simp [found]
  | none =>
    rw [first, Option.none_or] at found
    have last : k ∈ u.keys := given k (List.mem_of_find?_eq_some found)
    simp [last]

end Table

namespace Composer

theorem exists_document {t : Tree} {p : Path} {found : Table String} (h : read t p = .ok found) :
    ∃ document, found = table document := by
  rw [read] at h
  obtain ⟨there, -, h⟩ := Except.bind_eq_ok.1 h
  cases there with
  | false => cases h
  | true =>
    cases stored : t.read p with
    | error f => simp [stored] at h
    | ok bytes =>
      simp only [stored, Bool.not_true, Bool.false_eq_true, if_false, Except.pure_eq] at h
      obtain ⟨content, -, h⟩ := Except.bind_eq_ok.1 h
      split at h
      · cases h
      · cases h
      · exact ⟨_, (Except.ok.inj h).symm⟩
      · cases h

end Composer

namespace Config

variable {t : Tree} {root : Path} {es : List (Value × Value)} {c : Config} {composer explicit : Table String}

def setting (key : String) (es : List (Value × Value)) : Value := (Value.lookupText key es).getD .null

def composerTable (t : Tree) (c : Config) : Except Fault (Table String) :=
  c.composerFile.elim (.ok {}) (Composer.read t)

theorem mappings_of_ofEntries (loaded : ofEntries t root es = .ok c) (read : composerTable t c = .ok composer)
    (given : mappingTable "psr4" (setting "psr4" es) = .ok explicit) :
    c.mappings.normal = normalTable composer explicit := by
  simp only [ofEntries, Except.bind_eq_ok] at loaded
  obtain ⟨file, -, loaded⟩ := loaded
  rw [setting] at given
  cases file with
  | none =>
    simp only [given, Except.bind_eq_ok, Except.pure_eq, Except.ok.injEq, exists_eq_left'] at loaded
    obtain ⟨_, -, _, -, _, -, _, -, rfl⟩ := loaded
    cases read
    rfl
  | some p =>
    simp only [given, Except.bind_eq_ok, Except.pure_eq, Except.ok.injEq, exists_eq_left'] at loaded
    obtain ⟨found, readAt, _, -, _, -, _, -, _, -, rfl⟩ := loaded
    obtain rfl := Except.ok.inj (readAt.symm.trans read)
    rfl

theorem nodup_keys_composer (read : composerTable t c = .ok composer) : composer.keys.Nodup := by
  unfold composerTable at read
  cases file : c.composerFile with
  | none =>
    rw [file] at read
    cases read
    exact List.nodup_nil
  | some p =>
    rw [file] at read
    obtain ⟨document, rfl⟩ := Composer.exists_document read
    exact Table.nodup_keys_ofList _

theorem nodup_keys_explicit {v : Value} (given : mappingTable "psr4" v = .ok explicit) : explicit.keys.Nodup := by
  unfold mappingTable at given
  split at given
  · cases given
    exact List.nodup_nil
  · obtain ⟨entries, -, made⟩ := Except.bind_eq_ok.1 given
    cases made
    exact Table.nodup_keys_ofList entries
  · cases given

/-- Where there is no priority table, a namespace that the settings map most closely goes by one entry of the merged
table for it, and that is one of the settings exactly when the first spelling in the composer file is one of theirs. -/
theorem bestMatch_explicit_iff (loaded : ofEntries t root es = .ok c) (read : composerTable t c = .ok composer)
    (given : mappingTable "psr4" (setting "psr4" es) = .ok explicit) (single : c.mappings.priority.entries = [])
    {scope : String} {e : String × String} (mem : e ∈ explicit.entries) (covers : Resolver.Covers scope e)
    (longest : ∀ f ∈ c.mappings.normal.entries, Resolver.Covers scope f →
      (Resolver.lead f).length ≤ (Resolver.lead e).length) :
    ∃ w ∈ c.mappings.normal.entries, Resolver.lead w = Resolver.lead e ∧
      c.resolver.bestMatch scope = some (Resolver.toMatch w) ∧
      (∃ rest, c.resolver.directory scope = Resolver.trimSlashes w.2 ++ rest) ∧
      (w ∈ explicit.entries ↔
        ∀ k, composer.keys.find? (fun k => Name.bare k = Name.bare e.1) = some k → k ∈ explicit.keys) := by
  have merged := mappings_of_ofEntries loaded read given
  have distinct := nodup_keys_composer read
  have own := nodup_keys_explicit given
  obtain ⟨directory, kept⟩ : ∃ a, (e.1, a) ∈ c.mappings.normal.entries := by
    obtain ⟨a, stored⟩ := Table.exists_get?_of_mem_keys (Table.mem_keys_of_mem mem)
    refine ⟨a, Table.mem_of_get? ?_⟩
    rw [merged, normalTable, Table.get?_insertAll composer own]
    exact congrArg (Option.or · _) stored
  obtain ⟨w, found, spelled, best⟩ :=
    Resolver.bestMatch_eq_find? (r := c.resolver) (e := (e.1, directory)) single kept covers longest
  have chosen : w ∈ c.mappings.normal.entries := List.mem_of_find?_eq_some found
  have there : w ∈ (composer.insertAll explicit.entries).entries := by rwa [← normalTable, ← merged]
  have first : (composer.insertAll explicit.entries).keys.find? (fun k => Name.bare k = Name.bare e.1) = some w.1 := by
    have entry : c.mappings.normal.entries.find? ((fun k => decide (Name.bare k = Name.bare e.1)) ∘ Prod.fst) =
        some w := by
      refine Eq.trans (congrArg (List.find? · _) (funext fun f => ?_)) found
      simp only [Function.comp_apply, Resolver.lead, String.append_left_inj]
    rw [← normalTable, ← merged, Table.keys, List.find?_map, entry, Option.map_some]
  refine ⟨w, chosen, spelled, best, ?_, ?_⟩
  · have within := Resolver.exists_directory_eq best
    rwa [Resolver.directory_toMatch] at within
  · rw [Table.mem_of_mem_insertAll distinct own there]
    exact Table.mem_keys_iff_of_find? first

section

def composerText : String := "\x7b\"autoload\":\x7b\"psr-4\":\x7b\"App\\\\\":\"lib/\"\x7d\x7d\x7d"

def composerTree : Tree := ({} : Tree).put ["composer.json"] (.file (Text.bytes composerText))

def composerDocument : Value :=
  .dict [(.text "autoload", .dict [(.text "psr-4", .dict [(.text "App\\", .text "lib/")])])]

theorem read_composerTree : Composer.read composerTree ⟨.root, ["composer.json"]⟩ = .ok ⟨[("App\\", "lib")]⟩ := by
  have there : composerTree.exists? ⟨.root, ["composer.json"]⟩ = .ok true := by rfl
  have stored : composerTree.read ⟨.root, ["composer.json"]⟩ = .ok (Text.bytes composerText) := by rfl
  have decoded : Tree.decode (Text.bytes composerText) = .ok composerText := by
    rw [Tree.decode, Text.ofBytes?_bytes (by decide)]
    rfl
  have parsed : Json.read composerText = .ok composerDocument := by with_unfolding_all rfl
  have table : Composer.table composerDocument = ⟨[("App\\", "lib")]⟩ := by with_unfolding_all rfl
  simp only [Composer.read, there, stored, decoded, parsed, Except.ok_bind, composerDocument] at table ⊢
  rw [table]
  rfl

def spelling (lead : String) : List (Value × Value) :=
  [(.text "composer", .text "composer.json"), (.text "psr4", .dict [(.text lead, .text "app")])]

def spelled (lead : String) : Config where
  root := ⟨.root, []⟩
  mappings := ⟨normalTable ⟨[("App\\", "lib")]⟩ ⟨[(lead, "app")]⟩, {}⟩
  composerFile := some ⟨.root, ["composer.json"]⟩

theorem mappingTable_spelling (lead : String) :
    mappingTable "psr4" (setting "psr4" (spelling lead)) = .ok ⟨[(lead, "app")]⟩ := by
  simp [setting, spelling, Value.lookupText, Value.lookup, mappingTable, mappingEntry]
  rfl

theorem ofEntries_spelling (lead : String) :
    ofEntries composerTree ⟨.root, []⟩ (spelling lead) = .ok (spelled lead) := by
  have file : Path.child ⟨.root, []⟩ "composer.json" = ⟨.root, ["composer.json"]⟩ := by rfl
  have filled : nonempty "composer.json" = some "composer.json" := by rfl
  have unset : fallback .null = .ok "src" := by rfl
  simp [ofEntries, spelling, Value.lookupText, Value.lookup, text?, filled, file, read_composerTree, unset,
    commandNames, mappingTable, truth?]
  rfl

theorem bestMatch_explicit_alike :
    ofEntries composerTree ⟨.root, []⟩ (spelling "App\\") = .ok (spelled "App\\") ∧
      (spelled "App\\").resolver.bestMatch "App\\Model" = some ⟨"App\\", "app"⟩ := by
  refine ⟨ofEntries_spelling _, ?_⟩
  have covers : Resolver.Covers "App\\Model" ("App\\", "app") := ⟨by cbv, by cbv⟩
  obtain ⟨w, -, -, best, -, own⟩ :=
    bestMatch_explicit_iff (ofEntries_spelling "App\\") read_composerTree (mappingTable_spelling "App\\") rfl
      List.mem_cons_self covers (by decide +kernel)
  have chosen : w ∈ [("App\\", "app")] := own.2 (by decide +kernel)
  rw [List.mem_singleton.1 chosen] at best
  rw [best]
  rfl

theorem bestMatch_explicit_otherwise :
    ofEntries composerTree ⟨.root, []⟩ (spelling "App") = .ok (spelled "App") ∧
      mappingTable "psr4" (setting "psr4" (spelling "App")) = .ok ⟨[("App", "app")]⟩ ∧
      Resolver.Covers "App\\Model" ("App", "app") ∧
      (∀ f ∈ (spelled "App").mappings.normal.entries, Resolver.lead f = Resolver.lead ("App", "app")) ∧
      Resolver.toMatch ("App", "app") = ⟨"App\\", "app"⟩ ∧
      (spelled "App").resolver.bestMatch "App\\Model" = some ⟨"App\\", "lib"⟩ ∧
      (spelled "App").resolver.directory "App\\Model" = "lib/Model" := by
  refine ⟨ofEntries_spelling _, mappingTable_spelling _, ⟨by cbv, by cbv⟩, by decide +kernel, by decide +kernel, ?_,
    ?_⟩
  · rfl
  · decide +kernel

end

end Config

end PhpScaffold
