import PhpScaffold.Proofs.Generate.Batch
import PhpScaffold.Proofs.Generate.Steady
import PhpScaffold.Proofs.Template.Engine

namespace PhpScaffold

namespace Tree

def place (t : Tree) (p : Path) : List String := (t.locate p).toOption.getD []

theorem place_eq {t : Tree} {p : Path} {x : List String} (h : t.locate p = .ok x) : t.place p = x := by
  rw [place, h]
  rfl

def replace (t : Tree) (files : List String → Option ByteArray) (q : Preview) : List String → Option ByteArray :=
  Function.update files (t.place q.path) (some (Text.bytes q.content))

end Tree

namespace Config

variable {t u : Tree} {q : Preview}

theorem file?_of_store (h : store t q = (u, .ok ())) :
    Tree.Grown t u ∧ ∃ x, u.locate q.path = .ok x ∧
      u.file? = Function.update t.file? x (some (Text.bytes q.content)) := by
  rw [store_eq] at h
  split at h
  · cases h
  · rename_i v opened
    have made := Tree.made_of_makeDirectories opened
    split at h
    · cases h
    · rename_i w written
      obtain ⟨rfl, storable⟩ := Prod.mk.inj h
      obtain ⟨x, there, free, rfl⟩ := Tree.write_eq_ok.1 written
      have grown : Tree.Grown v (v.put x (.file q.stored)) := Tree.grown_put free (.inr ⟨_, rfl⟩)
      refine ⟨made.grown.trans grown, x, grown.locate there, ?_⟩
      rw [Tree.file?_put _ free, made.file?_eq, Preview.stored, storable]
      rfl

variable {c : Config} {engine : Engine} {files : Set (List String)} {dir : Path}

/-- The directory of the templates, if it is there afterwards, was there before, and no path leads to a file that the
templates come of. -/
def Untouched (c : Config) (files : Set (List String)) (t u : Tree) (paths : List Path) : Prop :=
  ∀ dir, c.templatesDir = some dir → ∀ home, u.Leads dir home →
    t.Leads dir home ∧ ∀ x ∈ files, ∀ p ∈ paths, u.locate p ≠ .ok (home ++ x)

theorem alike_of_store {v : Tree} (attempt : store t q = (u, .ok ())) (g : Tree.Grown u v)
    (apart : ∀ home, v.Leads dir home → t.Leads dir home ∧ ∀ x ∈ files, v.locate q.path ≠ .ok (home ++ x)) :
    Tree.Alike files dir t u := by
  intro x hx
  obtain ⟨first, place, there, replaced⟩ := file?_of_store attempt
  by_cases led : ∃ home, u.Leads dir home
  · obtain ⟨home, leads⟩ := led
    obtain ⟨leads', other⟩ := apart home (g.leads leads)
    rw [Tree.below?_of_leads leads, Tree.below?_of_leads leads', replaced, Function.update_of_ne]
    rintro rfl
    exact other x hx (g.locate there)
  · rw [Tree.below?_eq_none (not_exists.1 led),
      Tree.below?_eq_none fun home leads => led ⟨home, first.leads leads⟩]

/-- How far a batch has been written into a tree on the one hand, and shown in the first tree on the other. -/
structure Abreast (c : Config) (files : Set (List String)) (t : Tree) (before before' : List (Tree × SourceFile))
    (u : Tree) : Prop where
  grown : Tree.Grown t u
  sources : before'.map Prod.snd = before.map Prod.snd
  still : ∀ v ∈ before'.map Prod.fst, v = t
  alike : ∀ dir, c.templatesDir = some dir → ∀ v ∈ u :: before.map Prod.fst, Tree.Alike files dir t v

theorem abreast_start (c : Config) (files : Set (List String)) (t : Tree) : Abreast c files t [] [] t :=
  ⟨Tree.Grown.refl t, rfl, nofun, fun _ _ => List.forall_mem_singleton.2 fun _ _ => rfl⟩

namespace Abreast

variable {before before' : List (Tree × SourceFile)}

theorem layouts_eq (h : Abreast c files t before before' u) (comes : engine.ComesOf files) :
    c.layouts engine before u = c.layouts engine before' t := by
  unfold layouts
  cases templates : c.templatesDir with
  | none => rfl
  | some dir =>
    obtain ⟨now, seen⟩ := List.forall_mem_cons.1 (h.alike dir templates)
    refine (comes dir before' before t u h.sources (fun v hv => ?_) seen now).symm
    rw [h.still v hv]
    exact fun _ _ => rfl

theorem store {v : Tree} {f : SourceFile} (h : Abreast c files t before before' u)
    (attempt : Config.store u q = (v, .ok ())) (alike : ∀ dir, c.templatesDir = some dir → Tree.Alike files dir u v) :
    Abreast c files t (before ++ [(u, f)]) (before' ++ [(t, f)]) v := by
  refine ⟨h.grown.trans (file?_of_store attempt).1, by simp [h.sources], ?_, fun dir templates => ?_⟩
  · rw [List.map_append, List.forall_mem_append]
    exact ⟨h.still, List.forall_mem_singleton.2 rfl⟩
  · obtain ⟨now, seen⟩ := List.forall_mem_cons.1 (h.alike dir templates)
    rw [List.map_append, List.forall_mem_cons, List.forall_mem_append]
    exact ⟨fun x hx => (alike dir templates x hx).trans (now x hx), seen, List.forall_mem_singleton.2 now⟩

end Abreast

variable (c)

theorem previewAll_of_writeAll (comes : engine.ComesOf files) {artifacts : List Artifact}
    {before before' : List (Tree × SourceFile)} {paths : List Path} (so : Abreast c files t before before' u)
    (h : (c.writeAll engine false artifacts before u).result = .ok paths)
    (untouched : c.Untouched files t (c.writeAll engine false artifacts before u).state paths) :
    Tree.Grown u (c.writeAll engine false artifacts before u).state ∧
      ∃ shown, (c.previewAll engine t artifacts before').2 = .ok shown ∧ paths = shown.map Preview.path ∧
        (∀ q ∈ shown, ∃ x, (c.writeAll engine false artifacts before u).state.locate q.path = .ok x) ∧
        (c.writeAll engine false artifacts before u).state.file? =
          shown.foldl (c.writeAll engine false artifacts before u).state.replace u.file? := by
  -- for every tree that the ones before it have left, and whatever was printed by then
  induction artifacts generalizing before before' u paths with
  | nil =>
    cases h
    exact ⟨Tree.Grown.refl u, [], rfl, rfl, by simp, rfl⟩
  | cons a r ih =>
    rw [writeAll] at h untouched ⊢
    rw [previewAll, ← so.layouts_eq comes]
    cases printed : c.preview (c.layouts engine before u) a.name a.file with
    | error f => simp [printed] at h
    | ok q =>
      simp only [printed, Bool.false_eq_true, if_false] at h untouched ⊢
      cases attempt : store u q with
      | mk v outcome =>
        cases outcome with
        | error f => simp [attempt] at h
        | ok _ =>
          simp only [attempt] at h untouched ⊢
          obtain ⟨others, written, ended⟩ := Except.bind_eq_ok.1 h
          cases ended
          obtain ⟨first, x, there, replaced⟩ := file?_of_store attempt
          have later : Tree.Grown v (c.writeAll engine false r (before ++ [(u, a.file)]) v).state := by
            refine (c.written_of_writeAll engine fun f raised => ?_).grown
            rw [written] at raised
            cases raised
          have apart (dir : Path) (templates : c.templatesDir = some dir) : Tree.Alike files dir u v := by
            refine alike_of_store attempt later fun home leads => ?_
            obtain ⟨led, other⟩ := untouched dir templates home leads
            exact ⟨so.grown.leads led, fun x hx => other x hx _ List.mem_cons_self⟩
          have onward := so.store (f := a.file) attempt apart
          obtain ⟨rest, shown, all, rfl, located, final⟩ := ih onward written fun dir templates home leads => by
            obtain ⟨led, other⟩ := untouched dir templates home leads
            exact ⟨led, fun x hx p hp => other x hx p (List.mem_cons_of_mem _ hp)⟩
          refine ⟨first.trans rest, q :: shown, by simp [all], by simp, ?_, ?_⟩
          · exact List.forall_mem_cons.2 ⟨⟨x, rest.locate there⟩, located⟩
          · rw [List.foldl_cons, Tree.replace, Tree.place_eq (rest.locate there), ← replaced]
            exact final

theorem writeAll_dry (engine : Engine) (artifacts : List Artifact) (before : List (Tree × SourceFile)) (t : Tree) :
    (c.writeAll engine true artifacts before t).state = t ∧
      (c.writeAll engine true artifacts before t).result =
        (c.previewAll engine t artifacts before).2.map fun _ => [] := by
  induction artifacts generalizing before with
  | nil => exact ⟨rfl, rfl⟩
  | cons a r ih =>
    rw [writeAll, previewAll]
    cases c.preview (c.layouts engine before t) a.name a.file with
    | error f => exact ⟨rfl, rfl⟩
    | ok q =>
      simp only [if_true]
      obtain ⟨state, result⟩ := ih (before ++ [(t, a.file)])
      refine ⟨state, result.trans ?_⟩
      cases (c.previewAll engine t r (before ++ [(t, a.file)])).2 <;> rfl

def batch (p : Project) : Except Fault (List Artifact) := do
  c.validate
  (p.build c.strictTypes).result

theorem batch_after {p : Project} (steady : p.Steady) (n : Nat) : c.batch (p.after c.strictTypes n) = c.batch p := by
  rw [batch, batch, Project.result_build_after c.strictTypes steady]

variable (engine) (t : Tree) (p : Project)

theorem previews_eq :
    (c.previews engine t p).tree = t ∧
      (c.previews engine t p).result = c.batch p >>= fun batch => (c.previewAll engine t batch []).2 := by
  unfold previews batch
  cases c.validate with
  | error f => exact ⟨rfl, rfl⟩
  | ok _ =>
    simp only [Except.ok_bind]
    cases (p.build c.strictTypes).result <;> exact ⟨rfl, rfl⟩

theorem generate_eq (dryRun : Bool) :
    (c.generate engine t p dryRun).tree =
        ((c.batch p).map fun batch => (c.writeAll engine dryRun batch [] t).state).toOption.getD t ∧
      (c.generate engine t p dryRun).result =
        c.batch p >>= fun batch => (c.writeAll engine dryRun batch [] t).result := by
  unfold generate batch
  cases c.validate with
  | error f => exact ⟨rfl, rfl⟩
  | ok _ =>
    simp only [Except.ok_bind]
    cases (p.build c.strictTypes).result <;> exact ⟨rfl, rfl⟩

theorem generate_dry :
    (c.generate engine t p true).tree = t ∧
      (c.generate engine t p true).result = (c.previews engine t p).result.map fun _ => [] := by
  obtain ⟨tree, result⟩ := c.generate_eq engine t p true
  obtain ⟨-, shows⟩ := c.previews_eq engine t p
  rw [tree, result, shows]
  cases c.batch p with
  | error f => exact ⟨rfl, rfl⟩
  | ok batch => exact c.writeAll_dry engine batch [] t

variable {engine t p}

theorem previews_of_generate (comes : engine.ComesOf files) {paths : List Path}
    (h : (c.generate engine t p false).result = .ok paths)
    (untouched : c.Untouched files t (c.generate engine t p false).tree paths) :
    Tree.Grown t (c.generate engine t p false).tree ∧
      ∃ shown, (c.previews engine t p).result = .ok shown ∧ paths = shown.map Preview.path ∧
        (∀ q ∈ shown, ∃ x, (c.generate engine t p false).tree.locate q.path = .ok x) ∧
        (c.generate engine t p false).tree.file? =
          shown.foldl (c.generate engine t p false).tree.replace t.file? := by
  obtain ⟨tree, result⟩ := c.generate_eq engine t p false
  obtain ⟨-, shows⟩ := c.previews_eq engine t p
  rw [result] at h
  obtain ⟨batch, built, written⟩ := Except.bind_eq_ok.1 h
  rw [built] at tree
  rw [tree] at untouched ⊢
  rw [shows, built]
  exact c.previewAll_of_writeAll comes (abreast_start c files t) written untouched

theorem previews_after (steady : p.Steady) (n : Nat) :
    (c.previews engine t (p.after c.strictTypes n)).result = (c.previews engine t p).result := by
  rw [(c.previews_eq engine t _).2, (c.previews_eq engine t _).2, c.batch_after steady]

variable (engine t) in
theorem generate_after (steady : p.Steady) (n : Nat) (dryRun : Bool) :
    (c.generate engine t (p.after c.strictTypes n) dryRun).tree = (c.generate engine t p dryRun).tree ∧
      (c.generate engine t (p.after c.strictTypes n) dryRun).result = (c.generate engine t p dryRun).result := by
  rw [(c.generate_eq engine t _ dryRun).1, (c.generate_eq engine t _ dryRun).1, (c.generate_eq engine t _ dryRun).2,
    (c.generate_eq engine t _ dryRun).2, c.batch_after steady]
  exact ⟨rfl, rfl⟩

variable (t) in
/-- Showing a project and a dry run leave the tree.  A steady project that is written, after it was built any number of
times, is shown just so, after any other number, unless it writes to its own templates: the paths are those that are
shown, and the files are those of before but that each path leads to what is shown of it last. -/
theorem generate_previews (comes : engine.ComesOf files) (steady : p.Steady) (m n : Nat) :
    (c.previews engine t (p.after c.strictTypes n)).tree = t ∧
      (c.generate engine t (p.after c.strictTypes m) true).tree = t ∧
      (c.generate engine t (p.after c.strictTypes m) true).result =
        (c.previews engine t (p.after c.strictTypes n)).result.map (fun _ => []) ∧
      ∀ paths, (c.generate engine t (p.after c.strictTypes m) false).result = .ok paths →
        c.Untouched files t (c.generate engine t (p.after c.strictTypes m) false).tree paths →
        Tree.Grown t (c.generate engine t (p.after c.strictTypes m) false).tree ∧
        ∃ shown, (c.previews engine t (p.after c.strictTypes n)).result = .ok shown ∧
          paths = shown.map Preview.path ∧
          (∀ q ∈ shown, ∃ x, (c.generate engine t (p.after c.strictTypes m) false).tree.locate q.path = .ok x) ∧
          (c.generate engine t (p.after c.strictTypes m) false).tree.file? =
            shown.foldl (c.generate engine t (p.after c.strictTypes m) false).tree.replace t.file? := by
  obtain ⟨dryTree, dryResult⟩ := c.generate_after engine t steady m true
  obtain ⟨wetTree, wetResult⟩ := c.generate_after engine t steady m false
  refine ⟨(c.previews_eq engine t _).1, dryTree.trans (c.generate_dry engine t p).1, ?_,
    fun paths written untouched => ?_⟩
  · rw [dryResult, c.previews_after steady]
    exact (c.generate_dry engine t p).2
  · rw [wetResult] at written
    rw [wetTree] at untouched ⊢
    rw [c.previews_after steady]
    exact c.previews_of_generate comes written untouched

def twice : Project :=
  (({} : Project).addBlueprint { name := "App\\A", kind := .cls }).addBlueprint { name := "App\\A", kind := .interface }

def banner : String := "// {{ header }}\n"

def styles : Tree where
  entries := [(["work"], .directory), (["work", "tpl"], .directory),
    (["work", "tpl", "element.php.j2"], .file (Text.bytes banner))]

def styled : Config := { single with templatesDir := some (.ofText "/work/tpl") }

theorem generate_previews_twice :
    twice.Steady ∧
      (styled.generate .plain styles (twice.after styled.strictTypes 1) false).result =
        .ok [.ofText "/work/app/A.php", .ofText "/work/app/A.php"] ∧
      ∃ shown, (styled.previews .plain styles (twice.after styled.strictTypes 0)).result = .ok shown ∧
        shown.map Preview.path = [.ofText "/work/app/A.php", .ofText "/work/app/A.php"] ∧
        (styled.generate .plain styles (twice.after styled.strictTypes 1) false).tree.file? =
          shown.foldl (styled.generate .plain styles (twice.after styled.strictTypes 1) false).tree.replace
            styles.file? := by
  have steady : twice.Steady := by
    apply Project.Steady.add
    · apply Project.Steady.add Project.steady_empty
      exact .held (Blueprint.steady_of_none rfl)
    · exact .held (Blueprint.steady_of_none rfl)
  have ends : (styled.generate .plain styles (twice.after styled.strictTypes 1) false).result.toOption =
        some [.ofText "/work/app/A.php", .ofText "/work/app/A.php"] ∧
      ((styled.generate .plain styles (twice.after styled.strictTypes 1) false).tree.walk ["work", "tpl"]).toOption =
        some ["work", "tpl"] ∧
      ((styled.generate .plain styles (twice.after styled.strictTypes 1) false).tree.locate
        (.ofText "/work/app/A.php")).toOption = some ["work", "app", "A.php"] := by
    rw [Engine.plain_eq_knowing (s := banner) (by decide +kernel)]
    decide +kernel
  simp only [Except.toOption_eq_some] at ends
  obtain ⟨written, templates, place⟩ := ends
  have untouched : styled.Untouched {[Template.elementName], [Template.fileName]} styles
      (styled.generate .plain styles (twice.after styled.strictTypes 1) false).tree
      [.ofText "/work/app/A.php", .ofText "/work/app/A.php"] := by
    rintro _ ⟨⟩ home leads
    obtain rfl : ["work", "tpl"] = home := Except.ok.inj (templates.symm.trans leads.walk)
    refine ⟨⟨rfl, rfl⟩, fun x hx p hp => ?_⟩
    obtain rfl : p = .ofText "/work/app/A.php" := by simpa using hp
    rw [place]
    simp
  obtain ⟨-, -, -, told⟩ := styled.generate_previews styles Engine.comesOf_plain steady 1 0
  obtain ⟨-, shown, shows, same, -, files⟩ := told _ written untouched
  exact ⟨steady, written, shown, shows, same.symm, files⟩

def behindEmpty : Project :=
  (({} : Project).addFactory "Out\\X" fun _ => { made := .ok (.object "Duck"
    [("qualified_name", .value "Out\\X"), ("build", .builder fun _ => .ok {})]) }).addBlueprint
      { name := "App\\B", kind := .cls }

def roundabout : Config where
  root := .ofText "/work"
  mappings := { normal := .ofList [("App\\", "app"), ("Out\\", "out")] }
  templatesDir := some (.ofText "/work/out/../tpl")

theorem generate_previews_apart :
    behindEmpty.Steady ∧
      (roundabout.generate .plain styles behindEmpty false).result =
        .ok [.ofText "/work/out/Generated.php", .ofText "/work/app/B.php"] ∧
      ∃ shown, (roundabout.previews .plain styles behindEmpty).result = .ok shown ∧
        (roundabout.generate .plain styles behindEmpty false).tree.file? ≠
          shown.foldl (roundabout.generate .plain styles behindEmpty false).tree.replace styles.file? := by
  have steady : behindEmpty.Steady := by
    apply Project.Steady.add
    · apply Project.Steady.add Project.steady_empty
      refine .factory (fun _ _ => rfl) ?_ (fun _ _ => id) (fun _ => nofun)
      rintro _ _ ⟨⟩
      trivial
    · exact .held (Blueprint.steady_of_none rfl)
  have ends : (roundabout.generate .plain styles behindEmpty false).result.toOption =
        some [.ofText "/work/out/Generated.php", .ofText "/work/app/B.php"] ∧
      (roundabout.previews .plain styles behindEmpty).result.toOption.any fun shown =>
        (roundabout.generate .plain styles behindEmpty false).tree.file? ["work", "app", "B.php"] ≠
          shown.foldl (roundabout.generate .plain styles behindEmpty false).tree.replace styles.file?
            ["work", "app", "B.php"] := by
    rw [Engine.plain_eq_knowing (s := banner) (by decide +kernel)]
    decide +kernel
  obtain ⟨written, shows⟩ := ends
  obtain ⟨shown, shows, differs⟩ := Except.exists_of_any shows
  refine ⟨steady, Except.toOption_eq_some.1 written, shown, shows, fun same => ?_⟩
  rw [same] at differs
  simp at differs

end Config

end PhpScaffold

