import PhpScaffold.Proofs.Blueprint.Harvest

namespace PhpScaffold

namespace Blueprint

/-- What can be asked of a blueprint before it is built. -/
inductive Action
  | addImport (name : Value)
  | addImports (names : Value)
  | enable (on : Bool)
  | install (r : Recipe)

def act (b : Blueprint) : Action → Blueprint × Except Fault Unit
  | .addImport v => match importName v with
    | .ok name => (b.addImport name, .ok ())
    | .error f => (b, .error f)
  | .addImports v => b.addImportsOf v
  | .enable on => ({ b with autoImports := on }, .ok ())
  | .install r => match b.withRecipe r with
    | .ok (b, _) => (b, .ok ())
    | .error f => (b, .error f)

def after (b : Blueprint) (actions : List Action) : Blueprint := actions.foldl (fun b a => (b.act a).1) b

def tryOut (b : Blueprint) (r : Recipe) : Except Fault (List String) := do
  match (← (r.call (probe b.kind)).2).element? with
  | some e => e.harvest
  | none => return []

variable {b : Blueprint} {found : List String} {r : Recipe}

theorem collected_tryOut (h : b.tryOut r = .ok found) :
    found.Nodup ∧ ∀ n ∈ found, Name.relative n = n ∧ n ≠ "" := by
  obtain ⟨o, -, h⟩ := Except.bind_eq_ok.1 h
  split at h
  · rename_i e _
    obtain rfl := Element.dependencies_of_harvest h
    exact ⟨Element.nodup_dependencies e, fun n hn => Element.relative_of_mem_dependencies hn⟩
  · cases h
    exact ⟨List.nodup_nil, by simp⟩

theorem act_install (b : Blueprint) (r : Recipe) :
    b.act (.install r) =
      if b.autoImports then
        match b.tryOut r with
        | .ok found => ({ b with
            imports := b.imports ++ found.filter (· ∉ b.imports)
            recipe := some (r.call (probe b.kind)).1 }, .ok ())
        | .error f => (b, .error f)
      else ({ b with recipe := some r }, .ok ()) := by
  cases on : b.autoImports with
  | false => simp only [act, withRecipe, on, Bool.false_eq_true, if_false]
  | true =>
    simp only [act, withRecipe, on, if_true]
    cases answer : (r.call (probe b.kind)).2 with
    | error f => simp only [tryOut, answer, Except.error_bind]
    | ok o =>
      cases shaped : o.element? with
      | none => simp [tryOut, answer, shaped]
      | some e =>
        have tried : b.tryOut r = e.harvest := by simp only [tryOut, answer, Except.ok_bind, shaped]
        rw [tried]
        cases harvest : e.harvest with
        | error f => simp only [shaped, harvest, Except.error_bind]
        | ok found =>
          obtain ⟨distinct, bare⟩ := collected_tryOut (tried.trans harvest)
          simp only [shaped, harvest, Except.ok_bind, Except.pure_eq, addImports_eq distinct bare, on]

theorem act_induct {P : Blueprint → Prop} (added : ∀ b n, P b → P (addImport b n))
    (switched : ∀ b on, P b → P { b with autoImports := on }) (shaped : ∀ b r, P b → P { b with recipe := r })
    (h : P b) (a : Action) : P (b.act a).1 := by
  cases a with
  | addImport v =>
    rw [act]
    split
    · exact added b _ h
    · exact h
  | addImports v => exact addImportsOf_induct added h
  | enable on => exact switched b on h
  | install r =>
    rw [act_install]
    split
    · split
      · rename_i found tried
        obtain ⟨distinct, bare⟩ := collected_tryOut tried
        have grown : P (b.addImports found) := addImports_induct added h
        rw [addImports_eq distinct bare] at grown
        exact shaped _ _ grown
      · exact h
    · exact shaped b r h

theorem prefix_addImport (b : Blueprint) (n : String) : b.imports <+: (b.addImport n).imports := by
  obtain ⟨same, -⟩ | ⟨grown, -, -⟩ := b.addImport_cases n
  · exact ⟨[], by rw [same, List.append_nil]⟩
  · rw [grown]
    exact List.prefix_append _ _

theorem addImport_name_kind (b : Blueprint) (n : String) :
    (b.addImport n).name = b.name ∧ (b.addImport n).kind = b.kind := by
  obtain ⟨same, -⟩ | ⟨grown, -, -⟩ := b.addImport_cases n
  · rw [same]
    exact ⟨rfl, rfl⟩
  · rw [grown]
    exact ⟨rfl, rfl⟩

theorem prefix_act (b : Blueprint) (a : Action) : b.imports <+: (b.act a).1.imports :=
  act_induct (P := fun c => b.imports <+: c.imports) (fun c n h => h.trans (prefix_addImport c n)) (fun _ _ h => h)
    (fun _ _ h => h) (List.prefix_refl _) a

theorem Tidy.act (h : b.Tidy) (a : Action) : (b.act a).1.Tidy :=
  act_induct (fun _ n h => h.addImport n) (fun _ _ h => ⟨h.nodup, h.relative⟩) (fun _ _ h => ⟨h.nodup, h.relative⟩) h a

theorem act_name_kind (b : Blueprint) (a : Action) : (b.act a).1.name = b.name ∧ (b.act a).1.kind = b.kind :=
  act_induct (P := fun c => c.name = b.name ∧ c.kind = b.kind)
    (fun c n h => (addImport_name_kind c n).imp h.1.subst h.2.subst) (fun _ _ h => h) (fun _ _ h => h) ⟨rfl, rfl⟩ a

theorem after_induct {P : Blueprint → Prop} (step : ∀ b a, P b → P (act b a).1) (h : P b) (actions : List Action) :
    P (b.after actions) := by
  induction actions generalizing b with
  | nil => exact h
  | cons a r ih => exact ih (step b a h)

theorem tidy_after (name : String) (kind : Kind) (actions : List Action) :
    (({ name, kind } : Blueprint).after actions).Tidy :=
  after_induct (fun _ a h => h.act a) ⟨List.nodup_nil, by simp⟩ actions

theorem after_name_kind (b : Blueprint) (actions : List Action) :
    (b.after actions).name = b.name ∧ (b.after actions).kind = b.kind :=
  after_induct (P := fun c => c.name = b.name ∧ c.kind = b.kind)
    (fun c a h => (act_name_kind c a).imp h.1.subst h.2.subst) ⟨rfl, rfl⟩ actions

/-- Whatever a blueprint was asked before, its imports are distinct names without a backslash in front, and what it is
asked next only puts names behind them.  Installing a recipe puts there what trying it out finds, in order and save for
what is there, or leaves everything as it is when that fails; without automatic imports the recipe is not asked. -/
theorem after_grows (name : String) (kind : Kind) (actions : List Action) (a : Action) (r : Recipe) :
    let b := ({ name, kind } : Blueprint).after actions
    (b.imports.Nodup ∧ ∀ n ∈ b.imports, n ≠ "" ∧ n.toList.head? ≠ some Name.separator) ∧
    b.imports <+: (b.act a).1.imports ∧
    ((b.act a).1.name = name ∧ (b.act a).1.kind = kind) ∧
    b.act (.install r) =
      if b.autoImports then
        match b.tryOut r with
        | .ok found => ({ b with
            imports := b.imports ++ found.filter (· ∉ b.imports)
            recipe := some (r.call (probe b.kind)).1 }, .ok ())
        | .error f => (b, .error f)
      else ({ b with recipe := some r }, .ok ()) := by
  intro b
  have tidy : b.Tidy := tidy_after name kind actions
  obtain ⟨named, kinded⟩ : b.name = name ∧ b.kind = kind := after_name_kind _ actions
  have kept := b.act_name_kind a
  rw [named, kinded] at kept
  refine ⟨⟨tidy.nodup, fun n hn => ?_⟩, b.prefix_act a, kept, b.act_install r⟩
  obtain ⟨bare, filled⟩ := tidy.relative n hn
  exact ⟨filled, bare ▸ Name.head?_relative n⟩

example : (({ name := "App\\A", kind := .cls } : Blueprint).after
    [.addImport "\\Lib\\B", .enable false, .addImports (.list ["C", "", "Lib\\B", .int 1, "D"])]).imports =
      ["Lib\\B", "C"] := by
  rfl

end Blueprint

end PhpScaffold
