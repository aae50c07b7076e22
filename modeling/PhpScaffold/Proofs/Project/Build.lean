import PhpScaffold.Project
import PhpScaffold.Proofs.Except

namespace PhpScaffold

namespace Product

structure Fits (p : Product) (name : String) (build : Field) : Prop where
  named : p.field? "qualified_name" = some (.value (.text name))
  built : p.field? "build" = some build
  something : build ≠ .value .null

theorem passes?_eq_some {p : Product} {name : String} {build : Field} :
    p.passes? = some (name, build) ↔ p.Fits name build := by
  unfold passes?
  constructor
  · intro h
    split at h
    · cases h
    · rename_i other named built
      cases h
      exact ⟨named, built, fun null => other (null ▸ rfl)⟩
    · cases h
  · rintro ⟨named, built, something⟩
    rw [named, built]
    split
    · rename_i null
      exact absurd (Option.some.inj null) something
    · rename_i named' built'
      cases named'
      cases built'
      rfl
    · rename_i other
      exact absurd rfl (other _ _ rfl)

theorem passes?_eq_none {p : Product} : p.passes? = none ↔ ∀ name build, ¬ p.Fits name build := by
  simp only [Option.eq_none_iff_forall_ne_some, Prod.forall, ne_eq, passes?_eq_some]

end Product

namespace Source

variable (strictTypes : Bool)

inductive Gives (key : String) (s : Source) : Artifact → Prop
  | file {p : Product} {name : String} {make : Bool → Except Fault SourceFile} {f : SourceFile} :
    s.answer.made = .ok p → p.Fits name (.builder make) → make strictTypes = .ok f →
      Gives key s ⟨key, name, (p.field? "kind").getD (.value .null), f⟩

inductive Fails (key : String) (s : Source) : Fault → Prop
  | raised {cause : Fault} : s.answer.made = .error cause →
    Fails key s (.factoryRaised key cause.category.label cause.text)
  | unfit {p : Product} : s.answer.made = .ok p → (∀ name build, ¬ p.Fits name build) →
    Fails key s (.notBlueprint key p.typeName)
  | uncallable {p : Product} {name : String} {build : Product.Field} : s.answer.made = .ok p → p.Fits name build →
    (∀ make, build ≠ .builder make) → Fails key s (.notCallable build.typeName)
  | file {p : Product} {name : String} {make : Bool → Except Fault SourceFile} {f : Fault} :
    s.answer.made = .ok p → p.Fits name (.builder make) → make strictTypes = .error f → Fails key s f

/-- How an entry ends a batch, and what is still reported of it: it fails, or it is built but the project has grown. -/
inductive Stops (key : String) (s : Source) : Fault → List Event → Prop
  | fails {f : Fault} : s.Fails strictTypes key f → Stops key s f []
  | grown {a : Artifact} : s.Gives strictTypes key a → s.answer.additions ≠ [] → Stops key s .grown [.built key]

theorem build_cases (key : String) (s : Source) :
    (∃ a, s.build strictTypes key = .ok a ∧ s.Gives strictTypes key a) ∨
      ∃ f, s.build strictTypes key = .error f ∧ s.Fails strictTypes key f := by
  unfold build
  cases made : s.answer.made with
  | error cause => exact .inr ⟨_, rfl, .raised made⟩
  | ok p =>
    simp only [Product.build]
    cases passes : p.passes? with
    | none => exact .inr ⟨_, rfl, .unfit made (Product.passes?_eq_none.1 passes)⟩
    | some offer =>
      obtain ⟨name, build⟩ := offer
      have fits := Product.passes?_eq_some.1 passes
      cases build with
      | value v => exact .inr ⟨_, rfl, .uncallable made fits nofun⟩
      | kind k => exact .inr ⟨_, rfl, .uncallable made fits nofun⟩
      | builder make =>
        cases file : make strictTypes with
        | error f => exact .inr ⟨f, by simp [Product.Field.call, file], .file made fits file⟩
        | ok f => exact .inl ⟨_, by simp [Product.Field.call, file], .file made fits file⟩

variable {strictTypes}

theorem build_held {b : Blueprint} {f : SourceFile} (key : String) (built : (b.build strictTypes).2 = .ok f) :
    (held b).build strictTypes key = .ok ⟨key, b.name, .kind b.kind, f⟩ := by
  show (do return (⟨key, b.name, .kind b.kind, ← (b.build strictTypes).2⟩ : Artifact)) = _
  rw [built]
  rfl

variable {key : String} {s : Source} {f : Fault} {last : List Event}

theorem Stops.blames (h : s.Stops strictTypes key f last) :
    (f.category = .batch ∧ f.entry? = some key ∧ ∀ p, s.answer.made = .ok p → ∀ name build, ¬ p.Fits name build) ∨
    (∃ p name make, s.answer.made = .ok p ∧ p.Fits name (.builder make) ∧ make strictTypes = .error f) ∨
    (f.category = .type ∧ f.entry? = none ∧
      ∃ p name build, s.answer.made = .ok p ∧ p.Fits name build ∧ ∀ make, build ≠ .builder make) ∨
    (f.category = .runtime ∧ f.entry? = none ∧ s.answer.additions ≠ []) := by
  cases h with
  | fails fails =>
    cases fails with
    | raised made => exact .inl ⟨rfl, rfl, fun p other => by simp [made] at other⟩
    | unfit made unfit =>
      refine .inl ⟨rfl, rfl, fun p same => ?_⟩
      obtain rfl := Except.ok.inj (made.symm.trans same)
      exact unfit
    | uncallable made fits other => exact .inr (.inr (.inl ⟨rfl, rfl, _, _, _, made, fits, other⟩))
    | file made fits failed => exact .inr (.inl ⟨_, _, _, made, fits, failed⟩)
  | grown _ more => exact .inr (.inr (.inr ⟨rfl, rfl, more⟩))

end Source

namespace Project

variable (strictTypes : Bool)

def asked (es : List (String × Source)) : List (String × Source) := es.map fun e => (e.1, e.2.next strictTypes)

def reports (es : List (String × Source)) : List Event :=
  es.flatMap fun e => .asked e.1 :: e.2.answer.events ++ [.built e.1]

theorem buildEntries_cases (keys : List String) (es : List (String × Source)) :
    (∃ artifacts, buildEntries strictTypes keys es = ⟨asked strictTypes es, reports es, .ok artifacts⟩ ∧
      es.Forall₂ (fun e a => e.2.Gives strictTypes e.1 a) artifacts ∧ ∀ e ∈ es, e.2.answer.additions = []) ∨
    ∃ before e after f last, es = before ++ e :: after ∧
      buildEntries strictTypes keys es =
        ⟨asked strictTypes (before ++ [e]) ++ after ++ addAll keys e.2.answer.additions,
          reports before ++ .asked e.1 :: e.2.answer.events ++ last, .error f⟩ ∧
      (∀ d ∈ before, d.2.answer.additions = [] ∧ ∃ a, d.2.Gives strictTypes d.1 a) ∧
      e.2.Stops strictTypes e.1 f last := by
  -- the first entry to stop ends it, and those behind it stay as they are
  induction es with
  | nil => exact .inl ⟨[], rfl, .nil, by simp⟩
  | cons e r ih =>
    obtain ⟨key, s⟩ := e
    obtain ⟨a, result, gives⟩ | ⟨f, result, fails⟩ := s.build_cases strictTypes key
    · by_cases quiet : s.answer.additions = []
      · obtain ⟨artifacts, rest, each, all⟩ | ⟨before, e, after, f, last, rfl, rest, each, stops⟩ := ih
        · refine .inl ⟨a :: artifacts, ?_, .cons gives each, List.forall_mem_cons.2 ⟨quiet, all⟩⟩
          simp [buildEntries, result, quiet, rest, asked, reports]
        · refine .inr ⟨(key, s) :: before, e, after, f, last, rfl, ?_, ?_, stops⟩
          · simp [buildEntries, result, quiet, rest, asked, reports]
          · exact List.forall_mem_cons.2 ⟨⟨quiet, a, gives⟩, each⟩
      · refine .inr ⟨[], (key, s), r, .grown, _, rfl, ?_, by simp, .grown gives quiet⟩
        simp [buildEntries, result, quiet, asked, reports]
    · refine .inr ⟨[], (key, s), r, f, _, rfl, ?_, by simp, .fails fails⟩
      simp [buildEntries, result, asked, reports]

/-- A batch is built in order, or it ends at the first entry that fails or has made the project grow.  Up to there each
entry was asked once, and none after it. -/
theorem build_first_failure (p : Project) :
    (∃ artifacts, (p.build strictTypes).result = .ok artifacts ∧
      p.entries.entries.Forall₂ (fun e a => e.2.Gives strictTypes e.1 a) artifacts ∧
      (∀ e ∈ p.entries.entries, e.2.answer.additions = []) ∧
      (p.build strictTypes).state.entries.entries = asked strictTypes p.entries.entries ∧
      (p.build strictTypes).events = reports p.entries.entries) ∨
    ∃ before e after f last, p.entries.entries = before ++ e :: after ∧ (p.build strictTypes).result = .error f ∧
      (∀ d ∈ before, d.2.answer.additions = [] ∧ ∃ a, d.2.Gives strictTypes d.1 a) ∧
      e.2.Stops strictTypes e.1 f last ∧
      ((f.category = .batch ∧ f.entry? = some e.1 ∧
          ∀ p, e.2.answer.made = .ok p → ∀ name build, ¬ p.Fits name build) ∨
        (∃ p name make, e.2.answer.made = .ok p ∧ p.Fits name (.builder make) ∧ make strictTypes = .error f) ∨
        (f.category = .type ∧ f.entry? = none ∧
          ∃ p name build, e.2.answer.made = .ok p ∧ p.Fits name build ∧ ∀ make, build ≠ .builder make) ∨
        (f.category = .runtime ∧ f.entry? = none ∧ e.2.answer.additions ≠ [])) ∧
      (p.build strictTypes).state.entries.entries =
        asked strictTypes (before ++ [e]) ++ after ++ addAll p.keys e.2.answer.additions ∧
      (p.build strictTypes).events = reports before ++ .asked e.1 :: e.2.answer.events ++ last := by
  unfold build
  obtain ⟨artifacts, whole, each, quiet⟩ | ⟨before, e, after, f, last, entries, whole, each, stops⟩ :=
    buildEntries_cases strictTypes p.keys p.entries.entries
  · rw [whole]
    exact .inl ⟨artifacts, rfl, each, quiet, rfl, rfl⟩
  · rw [whole]
    exact .inr ⟨before, e, after, f, last, entries, rfl, each, stops, stops.blames, rfl, rfl⟩

def duck (build : Product.Field) : Product :=
  .object "Duck" [("qualified_name", .value "App\\X"), ("build", build)]

theorem build_blames_nobody :
    ((({} : Project).addFactory "App\\X" fun _ => { made := .ok (duck (.value (.int 5))) }).build true).result =
      .error (.notCallable "int") ∧
    ((({} : Project).addFactory "App\\X" fun _ =>
      { made := .ok (duck (.builder fun _ => .ok {}))
        additions := [("App\\Y", .held { name := "App\\Y", kind := .cls })] }).build true).result = .error .grown ∧
    ∀ f : Fault, f = .notCallable "int" ∨ f = .grown → f.category ≠ .batch ∧ f.entry? = none := by
  refine ⟨rfl, rfl, ?_⟩
  rintro _ (rfl | rfl) <;> exact ⟨nofun, rfl⟩

end Project

end PhpScaffold
