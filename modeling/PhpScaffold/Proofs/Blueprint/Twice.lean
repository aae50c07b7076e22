import PhpScaffold.Proofs.Blueprint.Harvest
import PhpScaffold.Proofs.Print.Mention

namespace PhpScaffold

namespace Namespace

variable {ns : Namespace}

theorem isIdentifier_join {names : List String} (filled : names ≠ []) (h : ∀ s ∈ names, Name.IsIdentifier s.toList) :
    Name.IsIdentifier (String.join names).toList := by
  induction names with
  | nil => exact absurd rfl filled
  | cons s r ih =>
    obtain ⟨first, rest⟩ := List.forall_mem_cons.1 h
    rw [String.join_cons, String.toList_append]
    cases r with
    | nil => simpa using first
    | cons t r => exact first.append (ih (by simp) rest)

theorem isIdentifier_of_spelling {name a : String} (whole : Name.IsWhole name.toList) (bare : Name.relative name = name)
    (h : Spelling name a) : Name.IsIdentifier a.toList := by
  obtain ⟨segments, some, all, spelled, -⟩ := whole.exists_segments
  obtain ⟨tail, filled, within, rfl⟩ := h
  rw [← bare, spelled, Name.segments_ofSegments some fun s hs => (all s hs).isSegment] at within
  exact isIdentifier_join filled fun s hs => all s (within.subset hs)

theorem addUses_name (ns : Namespace) (names : List String) :
    (names.foldl (fun ns name => ns.addUse name .null) ns).name = ns.name := by
  have kept (ns : Namespace) (name : String) : (ns.addUse name .null).name = ns.name := by
    simp only [addUse]
    split <;> rfl
  induction names generalizing ns with
  | nil => rfl
  | cons name r ih => rw [List.foldl_cons, ih, kept]

theorem Chosen.exists_ofTexts (h : ns.Chosen) {scope : String} (named : ns.name = .text scope) :
    ∃ uses : Table String, ns = ofTexts scope uses ns.elements ∧ uses.keys = ns.uses.keys ∧
      ∀ e ∈ uses.entries, Spelling e.1 e.2 := by
  have chosen : ∀ e ∈ ns.uses.entries, ∃ a, e.2 = .text a ∧ Spelling e.1 a := by
    intro e he
    obtain ⟨before, after, whole⟩ := List.append_of_mem he
    exact ⟨_, h before e after whole, aliasFor_spelling _ _⟩
  have texts : ns.uses.entries.map (fun e => (e.1, Value.text e.2.display)) = ns.uses.entries := by
    conv_rhs => rw [← List.map_id ns.uses.entries]
    refine List.map_congr_left fun e he => ?_
    obtain ⟨a, text, -⟩ := chosen e he
    rw [text, Value.display_text, ← text]
    rfl
  refine ⟨⟨ns.uses.entries.map fun e => (e.1, e.2.display)⟩, ?_, ?_, ?_⟩
  · have same : (⟨ns.uses.entries.map fun e => (e.1, e.2.display)⟩ : Table String).map .text = ns.uses := by
      rw [Table.map, List.map_map]
      exact congrArg Table.mk texts
    rw [ofTexts, same, ← named]
  · simp [Table.keys, Function.comp_def]
  · intro e he
    obtain ⟨f, hf, rfl⟩ := List.mem_map.1 he
    obtain ⟨a, text, spelled⟩ := chosen f hf
    simpa [text] using spelled

end Namespace

namespace Element

theorem isWhole_of_mem_dependencies {e : Element} {n : String} (h : n ∈ e.dependencies) : Name.IsWhole n.toList := by
  obtain ⟨s, -, found⟩ := List.mem_flatMap.1 (mem_distinct.1 h)
  exact Name.isWhole_of_mem_qualifiedNames found

section

variable {d e : Element} (same : d.anonymous = e.anonymous)

include same

theorem eq_rename_of_anonymous : d = e.rename d.name := by
  rw [← rename_rename (v := .null), show e.rename .null = _ from same.symm, anonymous, rename_rename, rename_name]

theorem Proper.of_anonymous (h : e.Proper) : d.Proper := by
  rw [eq_rename_of_anonymous same]
  exact ⟨h.name, h.type⟩

theorem written_eq_of_anonymous (ns : Namespace) : d.written ns = e.written ns := by
  rw [eq_rename_of_anonymous same]
  rfl

end

end Element

namespace Blueprint

variable {b : Blueprint} {r : Recipe} {f : SourceFile} {strictTypes : Bool} {n : String}

theorem addImports_cases (b : Blueprint) (names : List String) :
    ∃ imports, b.addImports names = { b with imports } ∧
      ∀ n ∈ imports, n ∈ b.imports ∨ ∃ m ∈ names, n = Name.relative m := by
  induction names generalizing b with
  | nil => exact ⟨b.imports, rfl, fun n hn => .inl hn⟩
  | cons m r ih =>
    obtain ⟨imports, grown, origin⟩ := ih (b.addImport m)
    have later {n : String} (h : ∃ m ∈ r, n = Name.relative m) : ∃ k ∈ m :: r, n = Name.relative k :=
      h.imp fun k hk => hk.imp_left (List.mem_cons_of_mem m)
    change ∃ imports, (b.addImport m).addImports r = _ ∧ _
    obtain ⟨same, -⟩ | ⟨more, -, -⟩ := b.addImport_cases m
    · rw [same] at grown origin ⊢
      exact ⟨imports, grown, fun n hn => (origin n hn).imp_right later⟩
    · rw [more] at grown origin ⊢
      refine ⟨imports, grown, fun n hn => ?_⟩
      obtain before | given := origin n hn
      · obtain old | new := List.mem_append.1 before
        · exact .inl old
        · exact .inr ⟨m, List.mem_cons_self, List.mem_singleton.1 new⟩
      · exact .inr (later given)

theorem declaring_name (b : Blueprint) : b.declaring.name = .text b.scope := Namespace.addUses_name _ _

theorem build_ofTexts (h : b.Tidy) (recipe : b.recipe = some r) (built : (b.build strictTypes).2 = .ok f) :
    ∃ uses o e, r.answer r.seen (.bare b.kind b.short) = .ok o ∧ o.Declares b.short e ∧
      f.namespaces.values = [.ofTexts b.scope uses ⟨[(.text b.short, e)]⟩] ∧
      uses.keys = b.imports.filter (· ≠ Name.bare b.name) ∧
      ∀ e ∈ uses.entries, Namespace.Spelling e.1 e.2 := by
  obtain ⟨uses, whole, keys, spelled⟩ := b.declaring_chosen.exists_ofTexts b.declaring_name
  rw [keys_declaring h] at keys
  obtain ⟨e, ⟨none, -⟩ | ⟨r', o, recipe', answered, declares, -⟩, rfl⟩ := build_eq_ok.1 built
  · rw [none] at recipe
    cases recipe
  · obtain rfl := Option.some.inj (recipe.symm.trans recipe')
    refine ⟨uses, o, e, answered, declares, ?_, keys, spelled⟩
    show [{ b.declaring with elements := ⟨[(.text b.short, e)]⟩ }] = _
    rw [whole]
    rfl

theorem withRecipe_cases {name : String} {kind : Kind} {events : List Event}
    (h : ({ name, kind } : Blueprint).withRecipe r = .ok (b, events)) :
    ∃ imports seen, b = { name, kind, imports, recipe := some { r with seen } } ∧
      ∀ n ∈ imports, Name.IsWhole n.toList := by
  simp only [withRecipe, if_true, Recipe.call] at h
  split at h
  · cases h
  split at h
  · cases h
    exact ⟨[], _, rfl, by simp⟩
  · rename_i e _
    obtain ⟨found, harvested, made⟩ := Except.bind_eq_ok.1 h
    cases made
    obtain rfl := Element.dependencies_of_harvest harvested
    obtain ⟨imports, grown, origin⟩ := addImports_cases { name, kind } e.dependencies
    refine ⟨imports, r.seen ++ [probe kind], by rw [grown], fun n hn => ?_⟩
    obtain ⟨m, given, rfl⟩ := (origin n hn).resolve_left List.not_mem_nil
    exact Name.isWhole_relative (Element.isWhole_of_mem_dependencies given)

/-- With automatic imports a name means what it meant without, unless it is captured: its class is that of the import
whose alias it is spelled like, if there is one. -/
theorem build_refers_iff {name : String} {kind : Kind} {on off : Blueprint} {harvested plain : List Event}
    {f g : SourceFile} (installed : ({ name, kind } : Blueprint).withRecipe r = .ok (on, harvested))
    (alone : ({ name, kind, autoImports := false } : Blueprint).withRecipe r = .ok (off, plain))
    (uniform : r.Uniform) (built : (on.build strictTypes).2 = .ok f) (built' : (off.build strictTypes).2 = .ok g)
    (proper : ∀ seen o e, r.answer seen (.bare kind (Name.short name)) = .ok o → o.element? = some e → e.Proper) :
    ∃ ns bare e e', f.namespaces.values = [ns] ∧ ns.elements.values = [e] ∧
      g.namespaces.values = [bare] ∧ bare.elements.values = [e'] ∧ e'.anonymous = e.anonymous ∧
      ns.useStatements = ns.imports.map Import.text ∧ ns.useStatements.map Import.ofText = ns.imports ∧
      bare.useStatements = [] ∧
      e.written ns = e.mentions.map ns.shorten ∧ e'.written bare = e.mentions.map bare.shorten ∧
      ((e.written ns).map ns.refers = (e'.written bare).map bare.refers ↔
        ∀ n ∈ e.mentions, ∀ i, ns.capturing (ns.shorten n) = some i →
          Name.folded i.name = Name.folded (Name.denoted (Name.scope name) n)) := by
  have tidy : on.Tidy := (Reached.withRecipe (.new name kind) rfl installed).harvested.toTidy
  obtain ⟨imports, seen, rfl, whole⟩ := withRecipe_cases installed
  cases alone
  obtain ⟨uses, o, e, answered, declares, file, keys, spelled⟩ := build_ofTexts tidy rfl built
  obtain ⟨unused, o', e', answered', declares', file', keys', -⟩ := build_ofTexts ⟨List.nodup_nil, by simp⟩ rfl built'
  obtain rfl : unused = {} := congrArg Table.mk (List.map_eq_nil_iff.1 keys')
  obtain ⟨d, shaped, same⟩ := declares.exists_element
  obtain ⟨d', shaped', same'⟩ := declares'.exists_element
  have alike : e'.anonymous = e.anonymous := by
    have shape := uniform _ _ _ _ _ _ _ answered' answered
    rw [shaped, shaped', Option.map_some, Option.map_some, same, same'] at shape
    exact Option.some.inj shape
  have imported : ∀ n ∈ uses.keys, n ∈ imports := by
    intro n hn
    rw [keys] at hn
    exact List.mem_of_mem_filter hn
  have aliases : ∀ a ∈ uses.values, Name.IsIdentifier a.toList := by
    intro a ha
    obtain ⟨u, hu, rfl⟩ := List.mem_map.1 ha
    have given : u.1 ∈ imports := imported _ (List.mem_map_of_mem hu)
    exact Namespace.isIdentifier_of_spelling (whole _ given) (tidy.relative _ given).1 (spelled u hu)
  have fine : e.Proper := (proper _ _ _ answered shaped).of_anonymous same.symm
  refine ⟨_, _, e, e', file, rfl, file', rfl, alike, ?_, ?_, ?_, Element.written_ofTexts aliases fine, ?_, ?_⟩
  · exact Namespace.useStatements_ofTexts _ _ _
  · exact Namespace.ofText_useStatements fun n hn => (whole n (imported n hn)).not_mem (by decide)
  · exact Namespace.useStatements_ofTexts _ _ _
  · rw [Element.written_eq_of_anonymous alike]
    exact Element.written_ofTexts (by simp [Table.values]) fine
  · rw [Element.written_eq_of_anonymous alike]
    exact Element.refers_written_iff aliases fine

section

def heir (name : Value) (parent : String) : Element :=
  { name, form := .cls parent [] [] ⟨[("order", { name := "order", type := "Order" })]⟩ false false false }

def heirSteps (parent : String) : List Step := [
  { word := "set_extends", arguments := [.text parent] },
  { word := "add_property", arguments := ["order"] },
  { path := [.property "order"], word := "set_type", arguments := ["Order"] }]

theorem run_heirSteps (name : Value) (parent : String) :
    (Element.bare .cls name).run (heirSteps parent) = .ok (heir name parent) := by
  with_unfolding_all rfl

def heirRecipe (parent : String) : Recipe := .ofSteps (·.run (heirSteps parent))

theorem answer_heirRecipe (parent : String) (seen : List Element) (name : Value) :
    (heirRecipe parent).answer seen (.bare .cls name) = .ok (.given (heir name parent)) := by
  simp only [heirRecipe, Recipe.ofSteps, Recipe.steady, run_heirSteps]
  rfl

def heirWith (parent : String) : Blueprint :=
  { name := "App\\Service", kind := .cls, imports := [parent],
    recipe := some { heirRecipe parent with seen := [probe .cls] } }

def heirWithout (parent : String) : Blueprint :=
  { name := "App\\Service", kind := .cls, autoImports := false, recipe := some (heirRecipe parent) }

def heirScope (uses : Table String) (parent : String) : Namespace :=
  .ofTexts "App" uses ⟨[(.text "Service", heir "Service" parent)]⟩

variable {name : Value} {parent : String}

theorem withRecipe_heir (needs : (heir "TempClass" parent).harvest = .ok [parent]) (bare : Name.relative parent = parent)
    (filled : parent ≠ "") : ({ name := "App\\Service", kind := .cls } : Blueprint).withRecipe (heirRecipe parent) =
      .ok (heirWith parent, [.probed "App\\Service" 1]) := by
  have answered : (heirRecipe parent).answer (heirRecipe parent).seen (probe .cls) =
      .ok (.given (heir "TempClass" parent)) := answer_heirRecipe parent _ _
  simp only [withRecipe, if_true, Recipe.call, answered, Outcome.element?, needs, Except.ok_bind, addImports,
    List.foldl_cons, List.foldl_nil, addImport, bare]
  simp [filled]
  rfl

theorem build_heir {b : Blueprint} {seen : List Element} (recipe : b.recipe = some { heirRecipe parent with seen })
    (kind : b.kind = .cls) : (b.build true).2 = .ok (b.fileOf true (heir b.short parent)) := by
  refine build_eq_ok.2 ⟨_, .inr ⟨_, .given (heir b.short parent), recipe, ?_, .given _, ?_⟩, rfl⟩
  · rw [kind]
    exact answer_heirRecipe parent seen _
  · rw [kind]
    rfl

theorem classNames_heir (filled : parent ≠ "") : (heir name parent).classNames = [parent] := by
  have parents : (heir name parent).parents = [.text parent] := by
    simp [heir, Element.parents, Form.parents, Value.truthy, filled]
  rw [Element.classNames, parents]
  rfl

theorem types_heir : (heir name parent).types = [(.text "Order", .bool false)] := rfl

theorem proper_heir (filled : parent ≠ "") (whole : Name.IsWhole parent.toList) : (heir name parent).Proper := by
  constructor
  · rw [classNames_heir filled]
    exact List.forall_mem_singleton.2 whole
  · rw [types_heir, List.forall_mem_singleton]
    rintro _ ⟨⟩
    have tokens : Name.tokens (Text.trim Text.isBlank "Order").toList = [.name "Order".toList] := by decide +kernel
    rw [Print.Neat, tokens]
    simp

theorem mentions_heir (filled : parent ≠ "") : (heir name parent).mentions = [parent, "Order"] := by
  have order : [((.text "Order", .bool false) : Value × Value)].flatMap Element.typeMentions = ["Order"] := by
    decide +kernel
  rw [Element.mentions, classNames_heir filled, types_heir, order]
  rfl

def capturedUses : Table String := ⟨[("Lib\\Order", "Order")]⟩

theorem build_refers_captured :
    ∃ f g, ({ name := "App\\Service", kind := .cls } : Blueprint).withRecipe (heirRecipe "Lib\\Order") =
        .ok (heirWith "Lib\\Order", [.probed "App\\Service" 1]) ∧
      ({ name := "App\\Service", kind := .cls, autoImports := false } : Blueprint).withRecipe
        (heirRecipe "Lib\\Order") = .ok (heirWithout "Lib\\Order", []) ∧
      ((heirWith "Lib\\Order").build true).2 = .ok f ∧ ((heirWithout "Lib\\Order").build true).2 = .ok g ∧
      f.namespaces.values = [heirScope capturedUses "Lib\\Order"] ∧
      g.namespaces.values = [heirScope {} "Lib\\Order"] ∧
      ((heir "Service" "Lib\\Order").written (heirScope capturedUses "Lib\\Order")).map
        (heirScope capturedUses "Lib\\Order").refers = ["lib\\order", "lib\\order"] ∧
      ((heir "Service" "Lib\\Order").written (heirScope {} "Lib\\Order")).map (heirScope {} "Lib\\Order").refers =
        ["lib\\order", "app\\order"] := by
  have filled : "Lib\\Order" ≠ "" := by decide
  have proper : (heir "Service" "Lib\\Order").Proper := proper_heir filled (by decide)
  have aliases : ∀ a ∈ capturedUses.values, Name.IsIdentifier a.toList :=
    List.forall_mem_singleton.2 ⟨'O', "rder".toList, by decide, by decide, List.all_eq_true.1 (by decide)⟩
  refine ⟨_, _, withRecipe_heir (by with_unfolding_all rfl) (by decide) filled, rfl, build_heir rfl rfl,
    build_heir rfl rfl, rfl, rfl, ?_, ?_⟩
  · rw [heirScope, Element.written_ofTexts aliases proper, mentions_heir filled]
    decide +kernel
  · rw [heirScope, Element.written_ofTexts (by simp [Table.values]) proper, mentions_heir filled]
    decide +kernel

theorem build_refers_apart :
    ∃ f g ns bare e e', ({ name := "App\\Service", kind := .cls } : Blueprint).withRecipe (heirRecipe "Lib\\Base") =
        .ok (heirWith "Lib\\Base", [.probed "App\\Service" 1]) ∧
      ({ name := "App\\Service", kind := .cls, autoImports := false } : Blueprint).withRecipe (heirRecipe "Lib\\Base") =
        .ok (heirWithout "Lib\\Base", []) ∧
      ((heirWith "Lib\\Base").build true).2 = .ok f ∧ ((heirWithout "Lib\\Base").build true).2 = .ok g ∧
      f.namespaces.values = [ns] ∧ ns.elements.values = [e] ∧ g.namespaces.values = [bare] ∧
      bare.elements.values = [e'] ∧ e.mentions = ["Lib\\Base", "Order"] ∧ ns.imports = [⟨"Lib\\Base", "Base"⟩] ∧
      (e.written ns).map ns.refers = (e'.written bare).map bare.refers := by
  have filled : "Lib\\Base" ≠ "" := by decide
  have installed := @withRecipe_heir "Lib\\Base" (by with_unfolding_all rfl) (by decide) filled
  have built : ((heirWith "Lib\\Base").build true).2 = _ := build_heir rfl rfl
  have built' : ((heirWithout "Lib\\Base").build true).2 = _ := build_heir rfl rfl
  obtain ⟨ns, bare, e, e', one, only, other, only', -, -, -, -, -, -, exactly⟩ :=
    build_refers_iff installed rfl (Recipe.uniform_ofSteps _) built built' (by
      intro seen o e answered shaped
      rw [answer_heirRecipe] at answered
      cases answered
      cases shaped
      exact proper_heir filled (by decide))
  obtain rfl := List.singleton_inj.1 (one.symm.trans rfl)
  obtain rfl := List.singleton_inj.1 (only.symm.trans rfl)
  refine ⟨_, _, _, bare, _, e', installed, rfl, built, built', one, only, other, only', mentions_heir filled,
    by decide +kernel, ?_⟩
  apply exactly.2
  rw [mentions_heir filled]
  decide +kernel

end

end Blueprint

end PhpScaffold
