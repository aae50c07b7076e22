import PhpScaffold.Proofs.Blueprint.Uniform
import PhpScaffold.Proofs.Import.Alias
import PhpScaffold.Proofs.Name.Token

namespace PhpScaffold

namespace Element

variable {e : Element} {found : List String} {n : String}

theorem dependencies_of_harvest (h : e.harvest = .ok found) : found = e.dependencies := by
  obtain ⟨_, -, made⟩ := Except.bind_eq_ok.1 h
  exact (Except.ok.inj made).symm

theorem checkSearchable_eq_ok {v : Value} (h : v.truthy = true → ∃ s, v = .text s) : checkSearchable v = .ok () := by
  by_cases filled : v.truthy = true
  · obtain ⟨s, rfl⟩ := h filled
    rfl
  · unfold checkSearchable
    split
    · rfl
    · exact absurd rfl filled
    · rw [if_neg filled]
      rfl

theorem harvest_eq (h : ∀ v ∈ e.references, v.truthy = true → ∃ s, v = .text s) : e.harvest = .ok e.dependencies := by
  have checked (vs : List Value) (h : ∀ v ∈ vs, v.truthy = true → ∃ s, v = .text s) :
      vs.forM checkSearchable = .ok () := by
    induction vs with
    | nil => rfl
    | cons v r ih =>
      obtain ⟨first, rest⟩ := List.forall_mem_cons.1 h
      show (do checkSearchable v; r.forM checkSearchable) = _
      rw [checkSearchable_eq_ok first, Except.ok_bind, ih rest]
  rw [harvest, checked _ h, Except.ok_bind]
  rfl

@[simp] theorem harvest_bare {kind : Kind} {name : Value} : (bare kind name).harvest = .ok [] := by
  cases kind <;> rfl

theorem mem_addName {names : List String} {m : String} : n ∈ addName names m ↔ n ∈ names ∨ n = m := by
  unfold addName
  split
  · rename_i there
    exact ⟨.inl, fun h => h.elim id fun same => same ▸ there⟩
  · simp

theorem mem_distinct {names : List String} : n ∈ distinct names ↔ n ∈ names := by
  have grown (before : List String) : n ∈ names.foldl addName before ↔ n ∈ before ∨ n ∈ names := by
    induction names generalizing before with
    | nil => simp
    | cons m r ih => rw [List.foldl_cons, ih, mem_addName, List.mem_cons, or_assoc]
  simp [distinct, grown]

theorem nodup_dependencies (e : Element) : e.dependencies.Nodup := by
  have grown (before names : List String) (h : before.Nodup) : (names.foldl addName before).Nodup := by
    induction names generalizing before with
    | nil => exact h
    | cons n r ih =>
      refine ih _ ?_
      unfold addName
      split
      · exact h
      · rename_i new
        rw [← List.concat_eq_append]
        exact h.concat new
  exact grown [] _ List.nodup_nil

theorem relative_of_mem_dependencies (h : n ∈ e.dependencies) : Name.relative n = n ∧ n ≠ "" := by
  obtain ⟨s, -, found⟩ := List.mem_flatMap.1 (mem_distinct.1 h)
  exact Name.relative_of_mem_qualifiedNames found

end Element

namespace Namespace

theorem keys_addUse {ns : Namespace} {n : String} (bare : Name.relative n = n) (filled : n ≠ "")
    (new : n ∉ ns.uses.keys) : (ns.addUse n .null).uses.keys = ns.uses.keys ++ [n] := by
  have unknown : (n.isEmpty || ns.uses.contains n) = false := by
    simpa [Table.contains] using ⟨filled, new⟩
  simp only [addUse, bare, unknown, Table.keys_insert, if_neg new, Bool.false_eq_true, if_false]

theorem keys_addUses {ns : Namespace} {names : List String} (distinct : names.Nodup)
    (bare : ∀ n ∈ names, Name.relative n = n ∧ n ≠ "") (new : ∀ n ∈ names, n ∉ ns.uses.keys) :
    (names.foldl (fun ns name => ns.addUse name .null) ns).uses.keys = ns.uses.keys ++ names := by
  induction names generalizing ns with
  | nil => simp
  | cons n r ih =>
    obtain ⟨other, distinct⟩ := List.nodup_cons.1 distinct
    obtain ⟨⟨relative, filled⟩, bare⟩ := List.forall_mem_cons.1 bare
    obtain ⟨unused, new⟩ := List.forall_mem_cons.1 new
    have keys := keys_addUse relative filled unused
    rw [List.foldl_cons, ih distinct bare, keys, List.append_assoc, List.singleton_append]
    intro m hm
    rw [keys, List.mem_append, List.mem_singleton, not_or]
    exact ⟨new m hm, fun same => other (same ▸ hm)⟩

end Namespace

namespace Blueprint

variable {b : Blueprint} {n : String}

/-- A blueprint that came about by imports, by recipes that were tried out, and by building. -/
inductive Reached : Blueprint → Prop
  | new (name : String) (kind : Kind) : Reached { name, kind }
  | addImport {b : Blueprint} (n : String) : Reached b → Reached (b.addImport n)
  | addImportsOf {b : Blueprint} (v : Value) : Reached b → Reached (b.addImportsOf v).1
  | enable {b : Blueprint} (on : Bool) : Reached b → Reached { b with autoImports := on }
  | withRecipe {b b' : Blueprint} {r : Recipe} {events : List Event} :
    Reached b → b.autoImports = true → b.withRecipe r = .ok (b', events) → Reached b'
  | build {b : Blueprint} (strictTypes : Bool) : Reached b → Reached (b.build strictTypes).1

structure Tidy (b : Blueprint) : Prop where
  nodup : b.imports.Nodup
  relative : ∀ n ∈ b.imports, Name.relative n = n ∧ n ≠ ""

/-- What the recipe made of the probe depends on imports only. -/
structure Harvested (b : Blueprint) : Prop extends Tidy b where
  probed : ∀ r, b.recipe = some r → ∃ seen o, r.answer seen (probe b.kind) = .ok o ∧
    ∀ e, o.element? = some e → ∃ found, e.harvest = .ok found ∧ ∀ n ∈ found, n ∈ b.imports

theorem addImport_cases (b : Blueprint) (n : String) :
    (b.addImport n = b ∧ (Name.relative n = "" ∨ Name.relative n ∈ b.imports)) ∨
      (b.addImport n = { b with imports := b.imports ++ [Name.relative n] } ∧ Name.relative n ≠ "" ∧
        Name.relative n ∉ b.imports) := by
  unfold addImport
  by_cases known : ((Name.relative n).isEmpty || b.imports.contains (Name.relative n)) = true
  · exact .inl ⟨if_pos known, by simpa using known⟩
  · exact .inr ⟨if_neg known, by simpa using known⟩

theorem mem_imports_addImport {m : String} (h : m ∈ b.imports) (n : String) : m ∈ (b.addImport n).imports := by
  obtain ⟨same, -⟩ | ⟨grown, -, -⟩ := b.addImport_cases n
  · rwa [same]
  · rw [grown]
    exact List.mem_append_left _ h

theorem mem_addImport (filled : n ≠ "") (bare : Name.relative n = n) : n ∈ (b.addImport n).imports := by
  obtain ⟨same, empty | known⟩ | ⟨grown, -, -⟩ := b.addImport_cases n
  · exact absurd (bare ▸ empty) filled
  · rw [same]
    exact bare ▸ known
  · rw [grown, bare]
    exact List.mem_append_right _ List.mem_cons_self

theorem Tidy.addImport (h : b.Tidy) (n : String) : (b.addImport n).Tidy := by
  obtain ⟨same, -⟩ | ⟨grown, filled, new⟩ := b.addImport_cases n
  · rwa [same]
  · rw [grown]
    constructor
    · rw [← List.concat_eq_append]
      exact h.nodup.concat new
    · rw [List.forall_mem_append]
      exact ⟨h.relative, List.forall_mem_singleton.2 ⟨Name.relative_relative n, filled⟩⟩

theorem Harvested.addImport (h : b.Harvested) (n : String) : (b.addImport n).Harvested := by
  have tidy := h.toTidy.addImport n
  have kept {m : String} := @mem_imports_addImport b m (n := n)
  obtain ⟨same, -⟩ | ⟨grown, -, -⟩ := b.addImport_cases n
  · rwa [same]
  · rw [grown] at kept tidy ⊢
    refine ⟨tidy, fun r recipe => ?_⟩
    obtain ⟨seen, o, answered, harvest⟩ := h.probed r recipe
    refine ⟨seen, o, answered, fun e made => ?_⟩
    obtain ⟨found, harvested, imported⟩ := harvest e made
    exact ⟨found, harvested, fun m hm => kept (imported m hm)⟩

section

variable {P : Blueprint → Prop} (step : ∀ b n, P b → P (addImport b n))

include step

theorem addImports_induct {names : List String} (h : P b) : P (b.addImports names) := by
  induction names generalizing b with
  | nil => exact h
  | cons n r ih => exact ih (step b n h)

theorem addImportItems_induct {vs : List Value} (h : P b) : P (b.addImportItems vs).1 := by
  induction vs generalizing b with
  | nil => exact h
  | cons v r ih =>
    rw [addImportItems]
    split
    · exact ih h
    · split
      · exact ih (step b _ h)
      · exact h

theorem addImportsOf_induct {v : Value} (h : P b) : P (b.addImportsOf v).1 := by
  unfold addImportsOf
  split
  · exact addImportItems_induct step h
  · exact h

end

theorem kind_addImports (b : Blueprint) (names : List String) : (b.addImports names).kind = b.kind := by
  refine addImports_induct (P := fun c => c.kind = b.kind) (fun c n h => ?_) rfl
  obtain ⟨same, -⟩ | ⟨grown, -, -⟩ := c.addImport_cases n
  · rwa [same]
  · rwa [grown]

theorem addImports_eq {names : List String} (distinct : names.Nodup)
    (bare : ∀ n ∈ names, Name.relative n = n ∧ n ≠ "") :
    b.addImports names = { b with imports := b.imports ++ names.filter (· ∉ b.imports) } := by
  -- for every blueprint, as a name that is added is among the imports for the names behind it
  induction names generalizing b with
  | nil => simp [addImports]
  | cons n r ih =>
    obtain ⟨other, distinct⟩ := List.nodup_cons.1 distinct
    obtain ⟨⟨relative, filled⟩, bare⟩ := List.forall_mem_cons.1 bare
    show (b.addImport n).addImports r = _
    rw [ih distinct bare]
    have cases := b.addImport_cases n
    rw [relative] at cases
    obtain ⟨same, known⟩ | ⟨grown, -, new⟩ := cases
    · rw [same, List.filter_cons_of_neg (by simpa using known.resolve_left filled)]
    · have rest : r.filter (· ∉ b.imports ++ [n]) = r.filter (· ∉ b.imports) := by
        refine List.filter_congr fun m hm => ?_
        have apart : m ≠ n := fun same => other (same ▸ hm)
        simp [apart]
      rw [grown, List.filter_cons_of_pos (by simpa using new), rest, List.append_assoc, List.singleton_append]

theorem mem_imports_addImports {names : List String} (h : n ∈ names) (filled : n ≠ "") (bare : Name.relative n = n) :
    n ∈ (b.addImports names).imports := by
  induction names generalizing b with
  | nil => cases h
  | cons m r ih =>
    obtain rfl | later := List.mem_cons.1 h
    · show n ∈ ((b.addImport n).addImports r).imports
      exact addImports_induct (P := fun c => n ∈ c.imports) (fun c m h => mem_imports_addImport h m)
        (mem_addImport filled bare)
    · exact ih later

theorem Harvested.withRecipe {b' : Blueprint} {r : Recipe} {events : List Event} (h : b.Harvested)
    (on : b.autoImports = true) (installed : b.withRecipe r = .ok (b', events)) : b'.Harvested := by
  simp only [Blueprint.withRecipe, on, if_true, Recipe.call] at installed
  split at installed
  · cases installed
  rename_i o answered
  split at installed
  · rename_i none
    cases installed
    refine ⟨⟨h.nodup, h.relative⟩, ?_⟩
    rintro _ ⟨⟩
    exact ⟨r.seen, o, answered, fun e made => by simp [none] at made⟩
  · rename_i e some
    obtain ⟨found, harvested, made⟩ := Except.bind_eq_ok.1 installed
    cases made
    have grown : (b.addImports found).Harvested := addImports_induct (fun c n h => h.addImport n) h
    refine ⟨⟨grown.nodup, grown.relative⟩, ?_⟩
    rintro _ ⟨⟩
    refine ⟨r.seen, o, ?_, fun d made => ?_⟩
    · simpa only [kind_addImports] using answered
    · obtain rfl := Option.some.inj (some.symm.trans made)
      refine ⟨found, harvested, fun n hn => ?_⟩
      obtain rfl := Element.dependencies_of_harvest harvested
      obtain ⟨bare, filled⟩ := Element.relative_of_mem_dependencies hn
      exact mem_imports_addImports hn filled bare

theorem Harvested.build (h : b.Harvested) (strictTypes : Bool) : (b.build strictTypes).1.Harvested := by
  unfold Blueprint.build
  cases recipe : b.recipe with
  | none => exact h
  | some r =>
    refine ⟨⟨h.nodup, h.relative⟩, ?_⟩
    rintro _ ⟨⟩
    exact h.probed r recipe

theorem Reached.harvested (h : Reached b) : b.Harvested := by
  induction h with
  | new => exact ⟨⟨List.nodup_nil, by simp⟩, by simp⟩
  | addImport n _ ih => exact ih.addImport n
  | addImportsOf v _ ih => exact addImportsOf_induct (fun c n h => h.addImport n) ih
  | enable on _ ih => exact ⟨⟨ih.nodup, ih.relative⟩, ih.probed⟩
  | withRecipe _ on installed ih => exact ih.withRecipe on installed
  | build strictTypes _ ih => exact ih.build strictTypes

theorem keys_declaring (h : b.Tidy) : b.declaring.uses.keys = b.imports.filter (· ≠ Name.bare b.name) := by
  rw [declaring, Namespace.keys_addUses]
  · rfl
  · exact h.nodup.filter _
  · intro n hn
    exact h.relative n (List.mem_of_mem_filter hn)
  · intro n _
    exact List.not_mem_nil

/-- A file imports what its blueprint does, in order and each once, save for its own element; and what the element
depends on is imported or is the element. -/
theorem build_imports (reached : Reached b) (uniform : ∀ r, b.recipe = some r → r.Uniform) {strictTypes : Bool}
    {f : SourceFile} (built : (b.build strictTypes).2 = .ok f) :
    ∃ ns e found, f.namespaces.values = [ns] ∧ ns.elements.values = [e] ∧
      ns.uses.keys = b.imports.filter (· ≠ Name.bare b.name) ∧ ns.uses.keys.Nodup ∧
      e.harvest = .ok found ∧ ∀ n ∈ found, n ∈ ns.uses.keys ∨ n = Name.bare b.name := by
  have harvested := reached.harvested
  have keys := keys_declaring harvested.toTidy
  have distinct : b.declaring.uses.keys.Nodup := keys ▸ harvested.nodup.filter _
  obtain ⟨e, made, rfl⟩ := build_eq_ok.1 built
  obtain ⟨found, collected, all⟩ : ∃ found, e.harvest = .ok found ∧ ∀ n ∈ found, n ∈ b.imports := by
    obtain ⟨-, rfl⟩ | ⟨r, outcome, recipe, answered, declares, -⟩ := made
    · exact ⟨[], Element.harvest_bare, by simp⟩
    · obtain ⟨seen, o, tried, harvest⟩ := harvested.probed r recipe
      obtain ⟨d, shaped, same⟩ := declares.exists_element
      have alike := uniform r recipe _ _ _ _ _ _ _ tried answered
      rw [shaped, Option.map_some, same] at alike
      obtain ⟨d', first, same'⟩ := Option.map_eq_some_iff.1 alike
      rw [← Element.harvest_eq_of_anonymous same']
      exact harvest d' first
  refine ⟨{ b.declaring with elements := ⟨[(.text b.short, e)]⟩ }, e, found, rfl, rfl, keys, distinct, collected,
    fun n hn => ?_⟩
  show n ∈ b.declaring.uses.keys ∨ n = Name.bare b.name
  rw [keys, List.mem_filter, or_iff_not_imp_right]
  exact fun other => ⟨all n hn, by simpa using other⟩

def serviceSteps : List Step := [
  { word := "set_extends", arguments := ["Lib\\Base"] },
  { word := "add_method", arguments := ["fresh"] },
  { path := [.method "fresh"], word := "set_return_type", arguments := ["App\\Service"] }]

def service : Blueprint := ({ name := "App\\Service", kind := .cls } : Blueprint).addImport "\\Lib\\Clock"

def serviceRecipe : Recipe := .ofSteps (·.run serviceSteps)

def installed : Blueprint :=
  { service with
    imports := ["Lib\\Clock", "Lib\\Base", "App\\Service"],
    recipe := some { serviceRecipe with seen := [probe .cls] } }

theorem exists_run_serviceSteps : ∃ e, (probe .cls).run serviceSteps = .ok e ∧
    e.harvest = .ok ["Lib\\Base", "App\\Service"] ∧ e.kind = .cls := by
  have ends : ((probe .cls).run serviceSteps >>= fun e => e.harvest.map (·, e.kind)) =
      .ok (["Lib\\Base", "App\\Service"], .cls) := by
    with_unfolding_all rfl
  obtain ⟨e, ran, found⟩ := Except.bind_eq_ok.1 ends
  obtain ⟨names, harvest, pair⟩ := Except.map_eq_ok.1 found
  obtain ⟨rfl, kind⟩ := Prod.mk.inj pair
  exact ⟨e, ran, harvest, kind⟩

theorem withRecipe_serviceRecipe : service.withRecipe serviceRecipe = .ok (installed, [.probed "App\\Service" 2]) := by
  obtain ⟨e, ran, found, -⟩ := exists_run_serviceSteps
  have answered : serviceRecipe.answer serviceRecipe.seen (probe .cls) = .ok (.given e) := by
    simp only [serviceRecipe, Recipe.ofSteps, Recipe.steady, ran]
    rfl
  have on : service.autoImports = true := by rfl
  have kind : service.kind = .cls := by rfl
  simp only [withRecipe, on, kind, if_true, Recipe.call, answered, Outcome.element?, found, Except.ok_bind]
  rfl

theorem makes_installed : ∃ e, installed.Makes e := by
  obtain ⟨e, ran, -, kind⟩ := exists_run_serviceSteps
  have again : (Element.bare .cls installed.short).run serviceSteps = .ok (e.rename installed.short) :=
    Element.run_rename _ ran
  refine ⟨_, .inr ⟨_, _, rfl, ?_, .given (e.rename installed.short), kind⟩⟩
  show (do return Outcome.given (← (Element.bare .cls installed.short).run serviceSteps)) = _
  rw [again]
  rfl

theorem reached_installed : Reached installed :=
  .withRecipe (.addImport "\\Lib\\Clock" (.new "App\\Service" .cls)) rfl withRecipe_serviceRecipe

theorem build_imports_steps :
    ∃ f ns e found, (installed.build true).2 = .ok f ∧ f.namespaces.values = [ns] ∧ ns.elements.values = [e] ∧
      ns.uses.keys = ["Lib\\Clock", "Lib\\Base"] ∧ e.harvest = .ok found ∧
      ∀ n ∈ found, n ∈ ["Lib\\Clock", "Lib\\Base"] ∨ n = "App\\Service" := by
  have uniform : ∀ r, installed.recipe = some r → r.Uniform := by
    rintro _ ⟨⟩
    exact Recipe.uniform_ofSteps serviceSteps
  obtain ⟨made, makes⟩ := makes_installed
  obtain ⟨f, built⟩ : ∃ f, (installed.build true).2 = .ok f := ⟨_, build_eq_ok.2 ⟨made, makes, rfl⟩⟩
  obtain ⟨ns, e, found, one, only, keys, -, harvest, all⟩ := build_imports reached_installed uniform built
  have listed : ns.uses.keys = ["Lib\\Clock", "Lib\\Base"] := keys.trans (by rfl)
  rw [listed] at all
  exact ⟨f, ns, e, found, built, one, only, listed, harvest, all⟩

end Blueprint

end PhpScaffold
