import PhpScaffold.Generate
import PhpScaffold.Proofs.Files.Growth

/-! What a batch leaves behind.  Files are written one after the other while later ones are still to be printed.  So a
run that fails leaves what was attempted before, and its tree is what it was exactly when all of that had been there. -/

namespace PhpScaffold

def Fault.refusal : Fault → Bool
  | .system cause _ => cause.refusal
  | _ => false

def Fault.gaveUp {α : Type} : Except Fault α → Bool
  | .error f => !f.refusal
  | .ok _ => false

theorem Fault.exists_of_gaveUp {α : Type} {r : Except Fault α} (h : gaveUp r) :
    ∃ f, r = .error f ∧ f.refusal = false := by
  cases r with
  | error f => exact ⟨f, rfl, by simpa [gaveUp] using h⟩
  | ok a => cases h

namespace Preview

def stored (q : Preview) : ByteArray := if (storable q.content).toBool then Text.bytes q.content else .empty

def sound (q : Preview) : Bool := q.path.nameable && (storable q.content).toBool

end Preview

namespace Tree

def overlay (u : Tree) (look : List String → Option Entry) (q : Preview) (place : List String) : Option Entry :=
  if u.isDirectory q.path.parent then
    if u.locate q.path = .ok place then some (.file q.stored)
    else if place ∈ u.passed q.path.parent.parts then some .directory
    else look place
  else look place

def Ready (t : Tree) (p : Path) : Prop := p.nameable → t.isDirectory p

structure Stored (t u : Tree) (q : Preview) : Prop where
  grown : Grown t u
  ready : u.Ready q.path.parent
  get? : u.get? = u.overlay t.get? q

variable {t u : Tree} {q : Preview}

theorem nameable_parent {p : Path} (h : p.nameable) : p.parent.nameable :=
  Path.nameable_of_prefix (List.dropLast_prefix p.parts) h

theorem nameable_of_isDirectory {p : Path} (h : t.isDirectory p) : p.nameable := by
  obtain ⟨place, there, -⟩ := isDirectory_iff.1 h
  exact (locate_eq_ok.1 there).1

theorem stored_of_unnameable_parent (h : q.path.parent.nameable = false) : Stored t t q := by
  refine ⟨Grown.refl t, fun named => by simp [h] at named, ?_⟩
  funext place
  rw [overlay, if_neg]
  intro there
  rw [nameable_of_isDirectory there] at h
  cases h

theorem stored_of_unnameable (made : Made t u q.path.parent) (h : q.path.nameable = false) : Stored t u q := by
  refine ⟨made.grown, fun _ => made.there, ?_⟩
  funext place
  rw [overlay, if_pos made.there, if_neg, made.get?]
  intro there
  rw [(locate_eq_ok.1 there).1] at h
  cases h

theorem stored_of_write {v : Tree} (made : Made t v q.path.parent) (h : v.write q.path q.stored = .ok u) :
    Stored t u q := by
  obtain ⟨home, there, free, rfl⟩ := write_eq_ok.1 h
  have grown : Grown v (v.put home (.file q.stored)) := grown_put free (.inr ⟨_, rfl⟩)
  have dir := grown.isDirectory made.there
  refine ⟨made.grown.trans grown, fun _ => dir, ?_⟩
  funext place
  obtain ⟨top, above, -⟩ := isDirectory_iff.1 made.there
  rw [overlay, if_pos dir, grown.locate there, get?_put v _ (ne_nil_of_get? free), made.get?,
    grown.passed (locate_eq_ok.1 above).2.2]
  have home_iff : (.ok home : Except SystemFault _) = .ok place ↔ place = home := by rw [Except.ok.injEq, eq_comm]
  simp only [home_iff]

theorem Ready.grown {p : Path} (h : t.Ready p) (g : Grown t u) : u.Ready p :=
  fun named => g.isDirectory (h named)

theorem overlay_eq (g : Grown t u) (h : t.Ready q.path.parent) (look : List String → Option Entry) :
    u.overlay look q = t.overlay look q := by
  funext place
  by_cases dir : t.isDirectory q.path.parent
  · obtain ⟨top, above, -⟩ := isDirectory_iff.1 dir
    rw [overlay, overlay, if_pos dir, if_pos (g.isDirectory dir), g.locate_eq dir,
      g.passed (locate_eq_ok.1 above).2.2]
  · have lost : ¬ u.isDirectory q.path.parent := fun there => dir (h (nameable_of_isDirectory there))
    rw [overlay, overlay, if_neg dir, if_neg lost]

theorem foldl_overlay_eq (g : Grown t u) {qs : List Preview} (h : ∀ q ∈ qs, t.Ready q.path.parent)
    (look : List String → Option Entry) : qs.foldl u.overlay look = qs.foldl t.overlay look := by
  induction qs generalizing look with
  | nil => rfl
  | cons q r ih =>
    rw [List.foldl_cons, List.foldl_cons, overlay_eq g (h q List.mem_cons_self)]
    exact ih (fun p hp => h p (List.mem_cons_of_mem q hp)) _

structure Written (t u : Tree) (qs : List Preview) : Prop where
  grown : Grown t u
  ready : ∀ q ∈ qs, u.Ready q.path.parent
  get? : u.get? = qs.foldl u.overlay t.get?

theorem written_nil (t : Tree) : Written t t [] := ⟨Grown.refl t, by simp, rfl⟩

theorem Stored.cons {v : Tree} {qs : List Preview} (first : Stored t u q) (rest : Written u v qs) :
    Written t v (q :: qs) := by
  refine ⟨first.grown.trans rest.grown, fun p hp => ?_, ?_⟩
  · obtain rfl | later := List.mem_cons.1 hp
    · exact first.ready.grown rest.grown
    · exact rest.ready p later
  · rw [List.foldl_cons, overlay_eq rest.grown first.ready, ← first.get?]
    exact rest.get?

theorem Written.unchanged_iff {qs : List Preview} (h : Written t u qs) :
    u.get? = t.get? ↔ (∀ q ∈ qs, t.Ready q.path.parent) ∧ qs.foldl t.overlay t.get? = t.get? := by
  constructor
  · intro same
    have back := grown_of_get?_eq same
    refine ⟨fun q hq => (h.ready q hq).grown back, ?_⟩
    rw [foldl_overlay_eq back h.ready, ← h.get?]
    exact same
  · rintro ⟨ready, kept⟩
    rw [h.get?, foldl_overlay_eq h.grown ready]
    exact kept

end Tree

namespace Config

variable {t u : Tree} {q : Preview} {r : Except Fault Unit}

theorem store_eq (t : Tree) (q : Preview) :
    store t q = match t.makeDirectories q.path.parent with
      | .error f => (t, .error f)
      | .ok v => match v.write q.path q.stored with
        | .error f => (v, .error f)
        | .ok u => (u, storable q.content) := rfl

theorem store_cases (h : store t q = (u, r)) (told : ∀ f, r = .error f → f.refusal = false) :
    Tree.Stored t u q ∧ (r = .ok () ↔ q.sound) := by
  rw [store_eq] at h
  split at h
  · rename_i f refused
    cases h
    obtain ⟨cause, path, rfl, why⟩ := Tree.refusal_of_makeDirectories refused
    have unnamed : q.path.parent.nameable = false := why ▸ told _ rfl
    refine ⟨Tree.stored_of_unnameable_parent unnamed, by simp, fun sound => ?_⟩
    simp only [Preview.sound, Bool.and_eq_true] at sound
    rw [Tree.nameable_parent sound.1] at unnamed
    cases unnamed
  · rename_i v opened
    have made := Tree.made_of_makeDirectories opened
    split at h
    · rename_i f refused
      cases h
      obtain ⟨cause, rfl, why⟩ := Tree.refusal_of_write refused
      have unnamed : q.path.nameable = false := why ▸ told _ rfl
      exact ⟨Tree.stored_of_unnameable made unnamed, by simp [Preview.sound, unnamed]⟩
    · rename_i w written
      cases h
      refine ⟨Tree.stored_of_write made written, ?_⟩
      obtain ⟨home, there, -⟩ := Tree.write_eq_ok.1 written
      rw [Preview.sound, (Tree.locate_eq_ok.1 there).1]
      cases storable q.content <;> simp [Except.toBool]

variable (c : Config) (engine : Engine)

/-- The files that a batch comes to: all until one cannot be printed, or cannot be given to the system.  Each is printed
in the tree that the ones before it leave. -/
def attempted : List Artifact → List (Tree × SourceFile) → Tree → List Preview
  | [], _, _ => []
  | a :: r, before, t =>
    match c.preview (c.layouts engine before t) a.name a.file with
    | .error _ => []
    | .ok q => if q.sound then q :: attempted r (before ++ [(t, a.file)]) (store t q).1 else [q]

theorem written_of_writeAll {artifacts : List Artifact} {before : List (Tree × SourceFile)} {t : Tree}
    (told : ∀ f, (c.writeAll engine false artifacts before t).result = .error f → f.refusal = false) :
    Tree.Written t (c.writeAll engine false artifacts before t).state (c.attempted engine artifacts before t) := by
  -- for every tree, since an artifact is stored where the ones before it have left off
  induction artifacts generalizing before t with
  | nil => exact Tree.written_nil t
  | cons a r ih =>
    rw [attempted]
    rw [writeAll] at told ⊢
    cases printed : c.preview (c.layouts engine before t) a.name a.file with
    | error f => exact Tree.written_nil t
    | ok q =>
      simp only [printed, Bool.false_eq_true, if_false] at told ⊢
      cases attempt : store t q with
      | mk u r =>
        cases r with
        | error f =>
          simp only [attempt] at told ⊢
          obtain ⟨first, sound⟩ := store_cases attempt (fun g hg => told g (by simpa using hg))
          rw [if_neg (by simpa using sound)]
          exact first.cons (Tree.written_nil u)
        | ok _ =>
          simp only [attempt] at told ⊢
          obtain ⟨first, sound⟩ := store_cases attempt (fun g hg => by simp at hg)
          rw [if_pos (sound.1 rfl)]
          exact first.cons (ih fun g hg => told g (by simp [hg]))

/-- The files that a run comes to: none before the whole batch is built. -/
def attempts (t : Tree) (p : Project) : List Preview :=
  match c.validate, (p.build c.strictTypes).result with
  | .ok (), .ok artifacts => c.attempted engine artifacts [] t
  | _, _ => []

theorem written_of_generate {t : Tree} {p : Project}
    (told : ∀ f, (c.generate engine t p false).result = .error f → f.refusal = false) :
    Tree.Written t (c.generate engine t p false).tree (c.attempts engine t p) := by
  unfold generate attempts at *
  cases valid : c.validate with
  | error f =>
    simp only
    exact Tree.written_nil t
  | ok _ =>
    simp only [valid] at told ⊢
    cases built : (p.build c.strictTypes).result with
    | error f =>
      simp only
      exact Tree.written_nil t
    | ok artifacts =>
      simp only [built] at told ⊢
      exact c.written_of_writeAll engine told

/-- A run that fails, other than by the system's refusal, leaves the tree as it was exactly when all that it came to
before was there. -/
theorem generate_unchanged_iff {t : Tree} {p : Project} {f : Fault}
    (failed : (c.generate engine t p false).result = .error f) (other : f.refusal = false) :
    (c.generate engine t p false).tree.get? = t.get? ↔
      (∀ q ∈ c.attempts engine t p, t.Ready q.path.parent) ∧ (c.attempts engine t p).foldl t.overlay t.get? = t.get? := by
  apply Tree.Written.unchanged_iff
  apply written_of_generate
  intro g raised
  rw [failed, Except.error.injEq] at raised
  exact raised ▸ other

def single : Config := { root := .ofText "/work", mappings := { normal := .ofList [("App\\", "app")] } }

def unprintable : Blueprint where
  name := "App\\B"
  kind := .cls
  recipe := some <| .steady fun e =>
    .ok <| .given { e with constants := .ofList [(.text "X", { name := .text "X", value := .set [.int 1] })] }

theorem generate_unchanged_first :
    ∃ f, (single.generate .plain {} (({} : Project).addBlueprint unprintable) false).result = .error f ∧
      f.refusal = false ∧
      (single.generate .plain {} (({} : Project).addBlueprint unprintable) false).tree.get? = ({} : Tree).get? := by
  have gaveUp : Fault.gaveUp (single.generate .plain {} (({} : Project).addBlueprint unprintable) false).result := by
    decide +kernel
  have none : (single.attempts .plain {} (({} : Project).addBlueprint unprintable)).isEmpty := by decide +kernel
  obtain ⟨f, failed, other⟩ := Fault.exists_of_gaveUp gaveUp
  refine ⟨f, failed, other, (generate_unchanged_iff single .plain failed other).2 ?_⟩
  rw [List.isEmpty_iff.1 none]
  exact ⟨by simp, rfl⟩

def halfway : Project := (({} : Project).addBlueprint { name := "App\\A", kind := .cls }).addBlueprint unprintable

theorem generate_unchanged_second :
    ∃ f, (single.generate .plain {} halfway false).result = .error f ∧ f.refusal = false ∧
      (single.generate .plain {} halfway false).tree.get? ["work", "app", "A.php"] ≠
        ({} : Tree).get? ["work", "app", "A.php"] := by
  have ran : Fault.gaveUp (single.generate .plain {} halfway false).result ∧
      ((single.generate .plain {} halfway false).tree.get? ["work", "app", "A.php"]).isSome := by decide +kernel
  obtain ⟨gaveUp, there⟩ := ran
  obtain ⟨f, failed, other⟩ := Fault.exists_of_gaveUp gaveUp
  exact ⟨f, failed, other, Option.isSome_iff_ne_none.1 there⟩

end Config

end PhpScaffold
