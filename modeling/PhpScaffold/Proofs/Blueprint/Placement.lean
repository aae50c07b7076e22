import PhpScaffold.Proofs.Blueprint.Twice
import PhpScaffold.Proofs.Generate.Preview

namespace PhpScaffold

def SourceFile.Declares (f : SourceFile) (scope short : String) (e : Element) : Prop :=
  ∃ ns, f.namespaces.entries = [(.text scope, ns)] ∧ ns.name = .text scope ∧ ns.elements.entries = [(.text short, e)]

theorem Blueprint.declares_fileOf (b : Blueprint) (strictTypes : Bool) (e : Element) :
    (b.fileOf strictTypes e).Declares b.scope b.short e :=
  ⟨{ b.declaring with elements := ⟨[(.text b.short, e)]⟩ }, rfl, b.declaring_name, rfl⟩

namespace Config

variable (c : Config) {engine : Engine} {layouts : Layouts} {f : SourceFile} {name short : String} {e : Element}

def home (scope short : String) : Path := (c.root.child (c.resolver.directory scope)).child (short ++ ".php")

theorem className_of_declares (h : f.Declares (Name.scope name) short e) : className name f = e.name := by
  obtain ⟨ns, declared, -, only⟩ := h
  have first : f.primaryElement (.text (Name.scope name)) = some e := by
    simp [SourceFile.primaryElement, Roster.get?, Value.lookup, Roster.values, declared, only]
  rw [className, first]
  rfl

theorem preview_of_declares (h : f.Declares (Name.scope name) short e) :
    c.preview layouts name f = (Print.file layouts f).map fun content =>
      ⟨c.home (Name.scope name) e.name.display, content, e.name, Name.scope name⟩ := by
  rw [preview, target, className_of_declares h]
  cases Print.file layouts f <;> rfl

/-- One file that is written: what is shown of it stands where its path leads, and no other file changes. -/
theorem writeAll_singleton {a : Artifact} {t : Tree} {paths : List Path}
    (h : (c.writeAll engine false [a] [] t).result = .ok paths) :
    ∃ q, c.preview (c.layouts engine [] t) a.name a.file = .ok q ∧ paths = [q.path] ∧
      ∃ x, (c.writeAll engine false [a] [] t).state.locate q.path = .ok x ∧
        (c.writeAll engine false [a] [] t).state.file? = Function.update t.file? x (some (Text.bytes q.content)) := by
  rw [writeAll] at h ⊢
  cases printed : c.preview (c.layouts engine [] t) a.name a.file with
  | error fault => simp [printed] at h
  | ok q =>
    simp only [printed, Bool.false_eq_true, if_false] at h ⊢
    cases attempt : store t q with
    | mk u outcome =>
      cases outcome with
      | error fault => simp [attempt] at h
      | ok _ =>
        simp only [attempt] at h ⊢
        cases h
        obtain ⟨-, x, there, replaced⟩ := file?_of_store attempt
        exact ⟨q, rfl, rfl, x, there, replaced⟩

theorem written_of_declares (h : f.Declares (Name.scope name) short e) (key : String) (kind : Product.Field) (t : Tree)
    (paths : List Path) (written : (c.writeAll engine false [⟨key, name, kind, f⟩] [] t).result = .ok paths) :
    paths = [c.home (Name.scope name) e.name.display] ∧
      ∃ content x, Print.file (c.layouts engine [] t) f = .ok content ∧
        (c.writeAll engine false [⟨key, name, kind, f⟩] [] t).state.locate
          (c.home (Name.scope name) e.name.display) = .ok x ∧
        (c.writeAll engine false [⟨key, name, kind, f⟩] [] t).state.file? =
          Function.update t.file? x (some (Text.bytes content)) := by
  obtain ⟨q, shown, rfl, x, there, files⟩ := c.writeAll_singleton written
  rw [c.preview_of_declares h] at shown
  obtain ⟨content, printed, rfl⟩ := Except.map_eq_ok.1 shown
  exact ⟨rfl, content, x, printed, there, files⟩

end Config

namespace Blueprint

/-- A file that is built declares one element, of the kind, in the namespace and under the last segment of the name.  It
is shown and written in the place of its own name, which is that segment unless the recipe answers the element that it
was given.  What is no element of the kind is refused. -/
theorem build_declares (b : Blueprint) (strictTypes : Bool) :
    Name.Parts b.name b.scope b.short ∧
    (∀ f, (b.build strictTypes).2 = .ok f ↔ ∃ e, b.Makes e ∧ f = b.fileOf strictTypes e) ∧
    (∀ f, (b.build strictTypes).2 = .ok f → ∃ e, b.Makes e ∧ f.Declares b.scope b.short e ∧ e.kind = b.kind ∧
      (e.name = .text b.short ∨ b.Returns e) ∧
      ∀ (c : Config) (layouts : Layouts) (engine : Engine),
        (c.preview layouts b.name f = (Print.file layouts f).map fun content =>
          ⟨c.home b.scope e.name.display, content, e.name, b.scope⟩) ∧
        ∀ key kind t paths, (c.writeAll engine false [⟨key, b.name, kind, f⟩] [] t).result = .ok paths →
          paths = [c.home b.scope e.name.display] ∧
          ∃ content x, Print.file (c.layouts engine [] t) f = .ok content ∧
            (c.writeAll engine false [⟨key, b.name, kind, f⟩] [] t).state.locate
              (c.home b.scope e.name.display) = .ok x ∧
            (c.writeAll engine false [⟨key, b.name, kind, f⟩] [] t).state.file? =
              Function.update t.file? x (some (Text.bytes content))) ∧
    ∀ r o, b.recipe = some r → r.answer r.seen (.bare b.kind b.short) = .ok o →
      (∀ e, o.element? = some e → e.kind ≠ b.kind) →
      (b.build strictTypes).2 = .error (.wrongElement b.name b.kind.typeName o.typeName) ∧
        (Fault.wrongElement b.name b.kind.typeName o.typeName).category = .type := by
  refine ⟨Name.parts b.name, fun f => build_eq_ok, fun f built => ?_, fun r o recipe answered other =>
    ⟨build_eq_error recipe answered other, rfl⟩⟩
  obtain ⟨e, made, rfl⟩ := build_eq_ok.1 built
  have declares := b.declares_fileOf strictTypes e
  exact ⟨e, made, declares, made.kind, made.named,
    fun c layouts engine => ⟨c.preview_of_declares declares, c.written_of_declares declares⟩⟩

def renamed (kind : Kind) : Blueprint where
  name := "\\App\\Sub\\A\\"
  kind := kind
  recipe := some <| .steady fun e => .ok <| .another (.bare .cls "Other") e.name

theorem makes_renamed : (renamed .cls).Makes (.bare .cls "A") :=
  .inr ⟨_, .another (.bare .cls "Other") "A", rfl, rfl, .another _ rfl, rfl⟩

theorem build_declares_renamed :
    (∃ f e, ((renamed .cls).build true).2 = .ok f ∧ f.Declares "App\\Sub" "A" e ∧ e.kind = .cls ∧ e.name = .text "A" ∧
      (Config.single.writeAll .plain false [⟨"A", (renamed .cls).name, .kind .cls, f⟩] [] {}).result =
        .ok [.ofText "/work/app/Sub/A.php"]) ∧
    ((renamed .enum).build true).2 =
      .error (.wrongElement "\\App\\Sub\\A\\" Kind.enum.typeName Kind.cls.typeName) := by
  obtain ⟨-, exactly, declares, -⟩ := build_declares (renamed .cls) true
  obtain ⟨-, -, -, refuses⟩ := build_declares (renamed .enum) true
  have scope : (renamed .cls).scope = "App\\Sub" := by decide +kernel
  have short : (renamed .cls).short = "A" := by decide +kernel
  have path : Config.single.home "App\\Sub" "A" = .ofText "/work/app/Sub/A.php" := by decide +kernel
  have built := (exactly _).2 ⟨_, makes_renamed, rfl⟩
  obtain ⟨e, -, placed, kind, named, shown⟩ := declares _ built
  have own : e.name = .text "A" := by
    obtain named | ⟨_, ⟨⟩, ⟨⟩⟩ := named
    rw [named, short]
  have written : (Config.single.writeAll .plain false
      [⟨"A", (renamed .cls).name, .kind .cls, (renamed .cls).fileOf true (.bare .cls "A")⟩] [] {}).result.toOption.any
        fun _ => true := by
    decide +kernel
  obtain ⟨paths, ended, -⟩ := Except.exists_of_any written
  rw [scope, own, Value.display_text] at shown
  rw [scope, short] at placed
  obtain ⟨rfl, -⟩ := (shown Config.single {} .plain).2 _ _ _ _ ended
  rw [path] at ended
  exact ⟨⟨_, e, built, placed, kind, own, ended⟩, (refuses _ _ rfl rfl (by rintro _ ⟨⟩ ⟨⟩)).1⟩

def selfNamed : Blueprint where
  name := "App\\A"
  kind := .cls
  recipe := some <| .steady fun e => .ok <| .given <| e.rename "Other"

/-- The element goes by the name that it was left with, and so does its file. -/
theorem build_declares_selfNamed :
    ∃ f e, (selfNamed.build true).2 = .ok f ∧ f.Declares "App" "A" e ∧ e.name = .text "Other" ∧
      (Config.single.writeAll .plain false [⟨"A", selfNamed.name, .kind .cls, f⟩] [] {}).result =
        .ok [.ofText "/work/app/Other.php"] := by
  have makes : selfNamed.Makes (.bare .cls "Other") := .inr ⟨_, .given (.bare .cls "Other"), rfl, rfl, .given _, rfl⟩
  have declares := selfNamed.declares_fileOf true (.bare .cls "Other")
  rw [show selfNamed.scope = "App" from by decide +kernel, show selfNamed.short = "A" from by decide +kernel] at declares
  exact ⟨_, _, build_eq_ok.2 ⟨_, makes, rfl⟩, declares, rfl, Except.toOption_eq_some.1 (by decide +kernel)⟩

end Blueprint

end PhpScaffold
