import PhpScaffold.Proofs.Agreement
import PhpScaffold.Proofs.Mapping.Descent

namespace PhpScaffold

namespace Config

/-- Settings whose directories are all relative paths without double dots.  An empty fallback directory is none: it
would make the paths of what is not mapped absolute. -/
structure Contained (c : Config) : Prop where
  valid : c.validate = .ok ()
  mapped : ∀ e ∈ c.mappings.normal.entries ++ c.mappings.priority.entries, Path.Descends e.2
  fallback : Path.Descends c.fallbackRoot
  filled : c.fallbackRoot ≠ ""

def reach (c : Config) (name : String) : Path :=
  (Path.ofText (c.resolver.directory (Name.scope name))).child (Name.short name ++ ".php")

/-- Whether the path of a class leads into the project: from the root of all files, or from that of the project. -/
def Stays (c : Config) (name : String) : Prop :=
  (c.reach name).absolute = true ∧ (c.reach name).Inside c.root ∨
    (c.reach name).absolute = false ∧ (Path.way (c.reach name).parts).Regains c.root.normalize.parts

variable {c : Config} {name : String}

theorem home_eq : c.home (Name.scope name) (Name.short name) = c.root.join (c.reach name) := by
  rw [home, reach, Path.child, Path.child, Path.child, Path.join_assoc]

theorem inside_home_iff : (c.home (Name.scope name) (Name.short name)).Inside c.root ↔ c.Stays name := by
  rw [home_eq, Stays]
  cases seen : (c.reach name).absolute with
  | true => simp [Path.join_of_absolute _ seen]
  | false => simp [Path.inside_join_iff seen]

/-- A name without double dots whose last segment does not start with a slash stays in the project. -/
theorem Contained.stays (h : c.Contained) (plain : Resolver.Plain name)
    (first : (Name.short name).toList.head? ≠ some '/') : c.Stays name := by
  have parts := Resolver.plain_iff.1 plain
  have filled := Mappings.filled_of_validate h.valid
  have directory : Path.Descends (c.resolver.directory (Name.scope name)) :=
    Resolver.descends_directory parts.1 (fun e he => ⟨h.mapped e he, filled e he⟩) ⟨h.fallback, h.filled⟩
  have seen := directory.child (Resolver.descends_file parts.2 (Name.parts name).last first)
  exact .inr ⟨seen.1, Path.regains_of_not_mem seen.2 _⟩

variable {t : Tree} {place : List String} {layouts : Layouts} {engine : Engine}

theorem path_of_preview {f : SourceFile} {q : Preview} (h : c.preview layouts name f = .ok q) :
    q.path = c.target name f := by
  obtain ⟨content, -, made⟩ := Except.bind_eq_ok.1 h
  cases made
  rfl

theorem changed_store {q : Preview} (changed : (store t q).1.file? place ≠ t.file? place) :
    place = q.path.normalize.parts := by
  rw [store_eq] at changed
  split at changed
  · exact absurd rfl changed
  · rename_i v opened
    -- the directories that are made on the way change no file
    have same := (Tree.made_of_makeDirectories opened).file?_eq
    split at changed
    · exact absurd (congrFun same place) changed
    · rename_i u written
      obtain ⟨x, there, free, rfl⟩ := Tree.write_eq_ok.1 written
      have put := Tree.file?_put q.stored free
      by_cases here : place = x
      · rw [here, Tree.eq_of_locate there]
      · refine absurd ?_ changed
        dsimp only
        rw [put, Function.update_of_ne here, same]

/-- A batch changes files only where its artifacts belong, however far it gets. -/
theorem changed_writeAll {artifacts : List Artifact} {before : List (Tree × SourceFile)} {dryRun : Bool}
    (changed : (c.writeAll engine dryRun artifacts before t).state.file? place ≠ t.file? place) :
    ∃ a ∈ artifacts, place = (c.target a.name a.file).normalize.parts := by
  -- for every tree, since each artifact is stored where the ones before it have left off
  induction artifacts generalizing before t with
  | nil => exact absurd rfl changed
  | cons a r ih =>
    rw [writeAll] at changed
    cases printed : c.preview (c.layouts engine before t) a.name a.file with
    | error f =>
      rw [printed] at changed
      exact absurd rfl changed
    | ok q =>
      have first (there : (store t q).1.file? place ≠ t.file? place) :
          ∃ d ∈ a :: r, place = (c.target d.name d.file).normalize.parts :=
        ⟨a, List.mem_cons_self, path_of_preview printed ▸ changed_store there⟩
      have later {before : List (Tree × SourceFile)} {u : Tree}
          (there : (c.writeAll engine dryRun r before u).state.file? place ≠ u.file? place) :
          ∃ d ∈ a :: r, place = (c.target d.name d.file).normalize.parts := by
        obtain ⟨d, hd, same⟩ := ih there
        exact ⟨d, List.mem_cons_of_mem a hd, same⟩
      cases dryRun with
      | true =>
        simp only [printed, if_true] at changed
        exact later changed
      | false =>
        simp only [printed, Bool.false_eq_true, if_false] at changed
        rcases attempt : store t q with ⟨u, f | _⟩ <;> simp only [attempt] at changed first
        · exact first changed
        · by_cases kept : u.file? place = t.file? place
          · exact later (kept ▸ changed)
          · exact first kept

theorem changed_generate {p : Project} {dryRun : Bool}
    (changed : (c.generate engine t p dryRun).tree.file? place ≠ t.file? place) :
    ∃ artifacts, c.batch p = .ok artifacts ∧ ∃ a ∈ artifacts, place = (c.target a.name a.file).normalize.parts := by
  rw [(c.generate_eq engine t p dryRun).1] at changed
  cases ended : c.batch p with
  | error f =>
    rw [ended] at changed
    exact absurd rfl changed
  | ok artifacts =>
    rw [ended] at changed
    exact ⟨artifacts, rfl, changed_writeAll changed⟩

end Config

namespace Blueprint

variable {b : Blueprint} {strictTypes : Bool} {f : SourceFile}

theorem target_of_build (named : b.Named) (built : (b.build strictTypes).2 = .ok f) (c : Config) :
    c.target b.name f = c.home (Name.scope b.name) (Name.short b.name) := by
  obtain ⟨e, makes, rfl⟩ := build_eq_ok.1 built
  rw [Config.target, Config.className_of_declares (b.declares_fileOf strictTypes e), named e makes, Value.display_text,
    Config.home]
  rfl

end Blueprint

namespace Command

variable {c : Command} {params : Params} {name : String} {p : Project} {cfg : Config} {artifacts : List Artifact}

def single : List Command := [createClass, createData]

theorem collect_singleton {step : Except Fault (Blueprint × List Event)} (made : (collect [step]).2 = .ok p) :
    ∃ b events, step = .ok (b, events) ∧ p = ({} : Project).addBlueprint b := by
  cases step with
  | error f => cases made
  | ok b =>
    cases made
    exact ⟨b.1, b.2, rfl, rfl⟩

theorem mem_builtin_of_single (own : c ∈ single) : c ∈ builtin := by
  obtain rfl | rfl : c = createClass ∨ c = createData := by simpa [single] using own
  · exact List.mem_cons_self
  · exact List.mem_cons_of_mem _ List.mem_cons_self

theorem exists_blueprint (own : c ∈ single) (given : argument params "fully-qualified-name" = .ok name)
    (made : (c.handle params).2 = .ok p) :
    ∃ b : Blueprint, b.name = name ∧ b.Named ∧ p = ({} : Project).addBlueprint b := by
  have data {text : String} {b : Blueprint} {events : List Event} (h : dataBlueprint name text = .ok (b, events)) :
      b.name = name := by
    obtain ⟨_, _, rfl, -⟩ := Blueprint.withRecipe_cases h
    rfl
  obtain ⟨b, same, rfl⟩ : ∃ b : Blueprint, b.name = name ∧ p = ({} : Project).addBlueprint b := by
    obtain rfl | rfl : c = createClass ∨ c = createData := by simpa [single] using own
    · obtain ⟨b, events, step, whole⟩ := collect_singleton made
      rw [given] at step
      cases step
      exact ⟨_, rfl, whole⟩
    · obtain ⟨b, events, step, whole⟩ := collect_singleton made
      rw [given, Except.ok_bind] at step
      refine ⟨b, ?_, whole⟩
      split at step
      · exact data step
      · exact data step
      · exact data step
      · cases step
  obtain ⟨d, held, named⟩ := held_handle (mem_builtin_of_single own) made (b.name, .held b) List.mem_cons_self
  cases held
  exact ⟨b, same, named, rfl⟩

theorem exists_artifact (own : c ∈ single) (given : argument params "fully-qualified-name" = .ok name)
    (made : (c.handle params).2 = .ok p) (built : cfg.batch p = .ok artifacts) :
    ∃ a, artifacts = [a] ∧ cfg.target a.name a.file = cfg.home (Name.scope name) (Name.short name) := by
  obtain ⟨b, rfl, named, rfl⟩ := exists_blueprint own given made
  obtain ⟨_, -, built⟩ := Except.bind_eq_ok.1 built
  obtain ⟨_, whole, gives, -⟩ | ⟨_, _, _, _, _, -, failed, -⟩ :=
    Project.build_first_failure cfg.strictTypes (({} : Project).addBlueprint b)
  · cases whole.symm.trans built
    have entries : (({} : Project).addBlueprint b).entries.entries = [(b.name, .held b)] := rfl
    rw [entries] at gives
    obtain ⟨a, rest, one, none, rfl⟩ := List.forall₂_cons_left_iff.1 gives
    obtain rfl := List.forall₂_nil_left_iff.1 none
    cases one with
    | file asked fits made =>
      cases asked
      cases fits.named
      cases fits.built
      exact ⟨_, rfl, Blueprint.target_of_build named made cfg⟩
  · cases failed.symm.trans built

variable {t : Tree} {engine : Engine}

theorem paths_carryOut (own : c ∈ single) (given : argument params "fully-qualified-name" = .ok name)
    {paths : List Path} {shown : List Preview} (done : (c.carryOut t engine cfg params false).2 = .ok (paths, shown)) :
    paths = [cfg.home (Name.scope name) (Name.short name)] := by
  unfold carryOut at done
  cases made : (c.handle params).2 with
  | error f =>
    rw [made] at done
    cases done
  | ok p =>
    simp only [made, Bool.false_eq_true, if_false, (cfg.generate_eq engine t p false).2] at done
    cases built : cfg.batch p with
    | error f =>
      rw [built] at done
      cases done
    | ok artifacts =>
      obtain ⟨a, rfl, target⟩ := exists_artifact own given made built
      rw [built, Except.ok_bind] at done
      cases written : (cfg.writeAll engine false [a] [] t).result with
      | error f =>
        rw [written] at done
        cases done
      | ok found =>
        rw [written] at done
        cases done
        obtain ⟨q, shown, rfl, -⟩ := cfg.writeAll_singleton written
        rw [Config.path_of_preview shown, target]

theorem changed_carryOut (own : c ∈ single) (given : argument params "fully-qualified-name" = .ok name)
    {place : List String} (changed : (c.carryOut t engine cfg params false).1.file? place ≠ t.file? place) :
    place = (cfg.home (Name.scope name) (Name.short name)).normalize.parts := by
  unfold carryOut at changed
  cases made : (c.handle params).2 with
  | error f =>
    rw [made] at changed
    exact absurd rfl changed
  | ok p =>
    simp only [made, Bool.false_eq_true, if_false] at changed
    obtain ⟨artifacts, built, a, ha, rfl⟩ := Config.changed_generate changed
    obtain ⟨d, rfl, target⟩ := exists_artifact own given made built
    obtain rfl := List.mem_singleton.1 ha
    rw [target]

/-- The file of a command that makes one class lies in the project exactly when the way to it stays there, and then no
file outside changes, whichever front end carries the command out.  With directories that are relative and have no
double dots, a name without double dots whose last segment does not start with a slash stays. -/
theorem written_inside_iff (own : c ∈ single) (given : argument params "fully-qualified-name" = .ok name) (cfg : Config)
    (engine : Engine) (t : Tree) :
    (∀ paths shown, (c.carryOut t engine cfg params false).2 = .ok (paths, shown) →
      ∃ q, paths = [q] ∧ (q.Inside cfg.root ↔ cfg.Stays name)) ∧
    (∀ place, (c.carryOut t engine cfg params false).1.file? place ≠ t.file? place → cfg.Stays name →
      cfg.root.normalize.parts <+: place) ∧
    (cfg.Contained → Resolver.Plain name → (Name.short name).toList.head? ≠ some '/' → cfg.Stays name) ∧
    (∀ cwd host verbose, host.engine = engine →
      (CommandLine.work t cwd host cfg c params false verbose).tree = (c.carryOut t engine cfg params false).1) ∧
    ∀ values, Tool.params c values = params → Tool.isDryRun values = false →
      (Service.perform t engine cfg c values).1 = (c.carryOut t engine cfg params false).1 := by
  refine ⟨fun paths shown done => ?_, fun place changed stays => ?_, fun contained => contained.stays,
    fun cwd host verbose same => same ▸ CommandLine.work_cases.1, fun values same wet => ?_⟩
  · exact ⟨_, paths_carryOut own given done, Config.inside_home_iff⟩
  · rw [changed_carryOut own given changed]
    exact (Path.inside_iff.1 (Config.inside_home_iff.2 stays)).2
  · rw [Service.perform_eq, same, wet]

theorem contained_single : Config.single.Contained where
  valid := by rfl
  mapped := by decide +kernel
  fallback := by decide +kernel
  filled := by decide +kernel

def called (name : String) : Params := ⟨[("fully-qualified-name", .text name)]⟩

def calling (name : String) : Tree × Except Fault (List Path × List Preview) :=
  createClass.carryOut {} .plain Config.single (called name) false

theorem written_inside_below :
    ∃ paths, (calling "App\\Model\\User").2 = .ok (paths, []) ∧
      (∃ q, paths = [q] ∧ q.Inside Config.single.root) ∧
      ∀ place, (calling "App\\Model\\User").1.file? place ≠ ({} : Tree).file? place → ["work"] <+: place := by
  have own : createClass ∈ single := List.mem_cons_self
  have given : argument (called "App\\Model\\User") "fully-qualified-name" = .ok "App\\Model\\User" := by rfl
  obtain ⟨paths, frame, stays, -⟩ := written_inside_iff own given Config.single .plain {}
  have inside := stays contained_single (by decide +kernel) (by decide +kernel)
  have ends : (calling "App\\Model\\User").2.toOption.any (fun done => done.2.isEmpty) = true := by decide +kernel
  obtain ⟨⟨found, shown⟩, done, none⟩ := Except.exists_of_any ends
  obtain rfl := List.isEmpty_iff.1 none
  obtain ⟨q, rfl, exact⟩ := paths _ _ done
  exact ⟨[q], done, ⟨q, rfl, exact.2 inside⟩, fun place changed => frame place changed inside⟩

theorem written_inside_above :
    Config.single.Contained ∧ argument (called "App\\../../x") "fully-qualified-name" = .ok "App\\../../x" ∧
      ∃ q, (calling "App\\../../x").2 = .ok ([q], []) ∧ ¬ q.Inside Config.single.root ∧
        ((calling "App\\../../x").1.file? ["x.php"]).isSome := by
  have given : argument (called "App\\../../x") "fully-qualified-name" = .ok "App\\../../x" := by rfl
  -- said together, so that the command is run once
  obtain ⟨ends, there⟩ : (calling "App\\../../x").2.toOption.any (fun done => done.2.isEmpty) = true ∧
      ((calling "App\\../../x").1.file? ["x.php"]).isSome := by
    decide +kernel
  obtain ⟨⟨found, shown⟩, done, none⟩ := Except.exists_of_any ends
  obtain rfl := List.isEmpty_iff.1 none
  obtain rfl := paths_carryOut List.mem_cons_self given done
  exact ⟨contained_single, given, _, done, by decide +kernel, there⟩

end Command

end PhpScaffold
