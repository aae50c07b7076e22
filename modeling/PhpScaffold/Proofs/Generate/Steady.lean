import PhpScaffold.Project
import PhpScaffold.Proofs.Except
import Mathlib.Logic.Function.Iterate

namespace PhpScaffold

variable (strictTypes : Bool)

namespace Recipe

def Steady (r : Recipe) : Prop := ∀ seen others e, r.answer seen e = r.answer others e

end Recipe

namespace Blueprint

def Steady (b : Blueprint) : Prop := ∀ r, b.recipe = some r → r.Steady

def fresh (b : Blueprint) : Blueprint := { b with recipe := b.recipe.map fun r => { r with seen := [] } }

variable {b : Blueprint}

theorem steady_of_none (h : b.recipe = none) : b.Steady := by
  intro r recipe
  rw [h] at recipe
  cases recipe

theorem build_fresh (h : b.Steady) : (b.fresh.build strictTypes).2 = (b.build strictTypes).2 := by
  unfold build
  cases recipe : b.recipe with
  | none => simp [fresh, recipe, draft, declaring, scope, short]
  | some r =>
    simp only [fresh, recipe, Option.map_some, Recipe.call]
    rw [h r recipe [] r.seen]
    rfl

variable (b) in
theorem fresh_build : (b.build strictTypes).1.fresh = b.fresh := by
  unfold build
  cases recipe : b.recipe with
  | none => rfl
  | some r => simp [fresh, recipe, Recipe.call]

theorem Steady.build (h : b.Steady) : (b.build strictTypes).1.Steady := by
  unfold Blueprint.build
  cases recipe : b.recipe with
  | none => exact h
  | some r =>
    rintro r' ⟨⟩
    exact h r recipe

end Blueprint

namespace Product

def Steady : Product → Prop
  | blueprint b => b.Steady
  | object _ _ => True

def fresh : Product → Product
  | blueprint b => blueprint b.fresh
  | p => p

variable {p : Product}

theorem field?_fresh (h : p.Steady) : p.fresh.field? = p.field? := by
  cases p with
  | object t fs => rfl
  | blueprint b =>
    have same : (fun strictTypes => (b.fresh.build strictTypes).2) = fun strictTypes => (b.build strictTypes).2 :=
      funext fun strictTypes => Blueprint.build_fresh strictTypes h
    funext name
    simp only [fresh, field?, same]
    rfl

theorem build_fresh (h : p.Steady) (key : String) : p.fresh.build strictTypes key = p.build strictTypes key := by
  have named : p.fresh.typeName = p.typeName := by cases p <;> rfl
  simp only [build, passes?, field?_fresh h, named]

end Product

namespace Source

/-- A factory may hand out the same blueprint each time, which then remembers having been asked. -/
inductive Steady : Source → Prop
  | held {b : Blueprint} : b.Steady → Steady (.held b)
  | factory {answer : Nat → Answer Source} {asked : Nat} :
    (∀ m n, (answer m).made.map Product.fresh = (answer n).made.map Product.fresh) →
    (∀ n p, (answer n).made = .ok p → p.Steady) →
    (∀ m n, (answer m).additions = [] → (answer n).additions = []) →
    (∀ n, ∀ a ∈ (answer n).additions, Steady a.2) → Steady (.factory answer asked)

variable {s : Source}

theorem Steady.additions (h : s.Steady) : ∀ a ∈ s.answer.additions, a.2.Steady := by
  cases h with
  | held => exact nofun
  | factory _ _ _ steady => exact steady _

theorem Steady.next (h : s.Steady) : (s.next strictTypes).Steady := by
  cases h with
  | held steady => exact .held (steady.build strictTypes)
  | factory same steady quiet others => exact .factory same steady quiet others

theorem Steady.quiet_iff (h : s.Steady) :
    (s.next strictTypes).answer.additions = [] ↔ s.answer.additions = [] := by
  cases h with
  | held => exact Iff.rfl
  | factory _ _ quiet _ => exact ⟨quiet _ _, quiet _ _⟩

def outcome (key : String) (made : Except Fault Product) : Except Fault Artifact :=
  match made with
  | .error f => .error (.factoryRaised key f.category.label f.text)
  | .ok p => p.build strictTypes key

theorem build_eq_outcome {made : Except Fault Product} (key : String) (h : ∀ p, made = .ok p → p.Steady) :
    outcome strictTypes key made = outcome strictTypes key (made.map Product.fresh) := by
  cases made with
  | error f => rfl
  | ok p => exact (Product.build_fresh strictTypes (h p rfl) key).symm

theorem Steady.build_next (h : s.Steady) (key : String) :
    (s.next strictTypes).build strictTypes key = s.build strictTypes key := by
  cases h with
  | @held b steady =>
    have same : Product.fresh (.blueprint (b.build strictTypes).1) = Product.fresh (.blueprint b) := by
      rw [Product.fresh, Product.fresh, Blueprint.fresh_build]
    calc
      Product.build strictTypes key (.blueprint (b.build strictTypes).1) =
          (Product.fresh (.blueprint (b.build strictTypes).1)).build strictTypes key :=
        (Product.build_fresh (p := .blueprint _) strictTypes (steady.build strictTypes) key).symm
      _ = Product.build strictTypes key (.blueprint b) := by
        rw [same]
        exact Product.build_fresh (p := .blueprint b) strictTypes steady key
  | @factory answer asked same steady =>
    change outcome strictTypes key (answer (asked + 1)).made = outcome strictTypes key (answer asked).made
    rw [build_eq_outcome strictTypes key (steady (asked + 1)), build_eq_outcome strictTypes key (steady asked),
      same (asked + 1) asked]

end Source

namespace Project

def Steady (p : Project) : Prop := ∀ e ∈ p.entries.entries, e.2.Steady

theorem steady_empty : ({} : Project).Steady := by
  intro e he
  cases he

theorem Steady.add {p : Project} {s : Source} (h : p.Steady) (name : String) (hs : s.Steady) :
    (p.add name s).Steady := by
  intro e he
  obtain rfl | old := Table.eq_or_mem_of_mem_insert he
  · exact hs
  · exact h e old

theorem steady_addAll (keys : List String) {additions : List (String × Source)} (h : ∀ a ∈ additions, a.2.Steady) :
    ∀ e ∈ addAll keys additions, e.2.Steady := by
  induction additions generalizing keys with
  | nil => exact nofun
  | cons a r ih =>
    obtain ⟨first, rest⟩ := List.forall_mem_cons.1 h
    exact List.forall_mem_cons.2 ⟨first, ih _ rest⟩

theorem buildEntries_again (keys : List String) {es : List (String × Source)} (h : ∀ e ∈ es, e.2.Steady) :
    (∀ e ∈ (buildEntries strictTypes keys es).state, e.2.Steady) ∧
      ∀ keys', (buildEntries strictTypes keys' (buildEntries strictTypes keys es).state).result =
        (buildEntries strictTypes keys es).result := by
  induction es with
  | nil => exact ⟨h, fun _ => rfl⟩
  | cons e r ih =>
    obtain ⟨key, source⟩ := e
    obtain ⟨first, rest⟩ := List.forall_mem_cons.1 h
    have next := first.next strictTypes
    have again := first.build_next strictTypes key
    have added := steady_addAll keys first.additions
    obtain ⟨others, same⟩ := ih rest
    have all : ∀ e ∈ (key, source.next strictTypes) :: r ++ addAll keys source.answer.additions, e.2.Steady :=
      List.forall_mem_append.2 ⟨List.forall_mem_cons.2 ⟨next, rest⟩, added⟩
    rw [buildEntries]
    cases built : source.build strictTypes key with
    | error f =>
      refine ⟨all, fun keys' => ?_⟩
      simp [buildEntries, again, built]
    | ok artifact =>
      by_cases quiet : source.answer.additions = []
      · have still := (first.quiet_iff strictTypes).2 quiet
        simp only [quiet, List.isEmpty_nil, if_true]
        refine ⟨List.forall_mem_cons.2 ⟨next, others⟩, fun keys' => ?_⟩
        simp [buildEntries, again, built, still, same]
      · have still := mt (first.quiet_iff strictTypes).1 quiet
        simp only [List.isEmpty_iff, quiet, if_false]
        refine ⟨all, fun keys' => ?_⟩
        simp [buildEntries, again, built, still]

theorem Steady.build {p : Project} (h : p.Steady) : (p.build strictTypes).state.Steady :=
  (buildEntries_again strictTypes p.keys h).1

def after (n : Nat) (p : Project) : Project := (fun p => (p.build strictTypes).state)^[n] p

/-- However often a steady project was built, it builds the same. -/
theorem result_build_after {p : Project} (h : p.Steady) (n : Nat) :
    ((p.after strictTypes n).build strictTypes).result = (p.build strictTypes).result := by
  induction n generalizing p with
  | zero => rfl
  | succ n ih =>
    calc
      ((p.after strictTypes (n + 1)).build strictTypes).result =
          (((p.build strictTypes).state.after strictTypes n).build strictTypes).result := rfl
      _ = ((p.build strictTypes).state.build strictTypes).result := ih (h.build strictTypes)
      _ = (p.build strictTypes).result := (buildEntries_again strictTypes p.keys h).2 _

end Project

end PhpScaffold
