import PhpScaffold.Command.Basic
import PhpScaffold.Proofs.Blueprint.Placement
import PhpScaffold.Proofs.Project.Build
import PhpScaffold.Proofs.Project.Keys
import PhpScaffold.Proofs.Text.Filled

namespace PhpScaffold

namespace Name

def last (name : String) : String := (splitLast name).2

theorem exists_segments_concat (name : String) : ∃ front, segments name = front ++ [last name] := by
  obtain ⟨clear, cut⟩ | ⟨scope, short, rfl, clear, cut⟩ := splitLast_cases name
  · refine ⟨[], ?_⟩
    rw [segments, Text.cut, List.splitOn_eq_singleton clear, last, cut]
    simp
  · refine ⟨Text.cut separator scope, ?_⟩
    have whole : scope ++ "\\" ++ short = scope ++ (String.singleton separator ++ short) := by
      rw [String.append_assoc]
      rfl
    have alone : Text.cut separator short = [short] := by
      rw [Text.cut, List.splitOn_eq_singleton clear, List.map_singleton, String.ofList_toList]
    rw [last, cut, segments, whole, Text.cut_append_break, alone]

end Name

namespace Namespace

theorem aliasFor_eq_last {ns : Namespace} {name : String} (free : Name.last name ∉ ns.taken) :
    ns.aliasFor name = Name.last name := by
  obtain ⟨front, cut⟩ := Name.exists_segments_concat name
  rw [aliasFor, cut, List.reverse_append, List.reverse_singleton, List.singleton_append]
  dsimp only
  cases front.reverse with
  | nil => rfl
  | cons s r => rw [freeAlias, if_neg free]

theorem Chosen.eq_last {ns : Namespace} (h : ns.Chosen) {short : String} (only : ns.elements.keys = [.text short])
    (distinct : (short :: ns.uses.keys.map Name.last).Nodup) :
    ∀ e ∈ ns.uses.entries, e.2 = .text (Name.last e.1) := by
  have early (before after : List (String × Value)) (whole : ns.uses.entries = before ++ after) :
      ∀ e ∈ before, e.2 = .text (Name.last e.1) := by
    induction before using List.reverseRecOn generalizing after with
    | nil => simp
    | append_singleton before e ih =>
      rw [List.append_assoc, List.singleton_append] at whole
      have front := ih (e :: after) whole
      refine List.forall_mem_append.2 ⟨front, List.forall_mem_singleton.2 ?_⟩
      rw [h before e after whole, aliasFor_eq_last]
      have apart : Name.last e.1 ∉ short :: before.map fun f => Name.last f.1 := by
        rw [Table.keys, whole, List.map_map, List.map_append, List.map_cons, ← List.cons_append] at distinct
        exact fun inside => List.disjoint_of_nodup_append distinct inside List.mem_cons_self
      rw [mem_taken, not_or]
      constructor
      · intro used
        obtain ⟨f, hf, same⟩ := List.mem_map.1 used
        rw [front f hf, Value.text.injEq] at same
        exact apart (List.mem_cons_of_mem _ (List.mem_map.2 ⟨f, hf, same⟩))
      · change Value.text (Name.last e.1) ∉ ns.elements.keys
        rw [only, List.mem_singleton, Value.text.injEq]
        exact fun same => apart (same ▸ List.mem_cons_self)
  exact early ns.uses.entries [] (List.append_nil _).symm

end Namespace

namespace Element

variable {e : Element}

theorem harvest_of_texts (h : ∀ v ∈ e.references, v = .null ∨ ∃ s, v = .text s) : e.harvest = .ok e.dependencies := by
  refine harvest_eq fun v hv filled => (h v hv).resolve_left ?_
  rintro rfl
  cases filled

end Element

namespace Blueprint

variable {b : Blueprint}

def Keeps (k : Kind) (f : Element → Element) : Prop :=
  ∀ name, (f (.bare k name)).kind = k ∧ (f (.bare k name)).name = name

/-- A blueprint of a recipe that gives an element a shape, once it has been tried out. -/
structure Shapes (k : Kind) (n : String) (f : Element → Element) (b : Blueprint) : Prop where
  name : b.name = n
  kind : b.kind = k
  imports : b.imports = (f (probe k)).dependencies
  recipe : ∃ seen, b.recipe = some { Recipe.shape f with seen }

variable {k : Kind} {n : String} {f : Element → Element} {strictTypes : Bool}

theorem exists_shapes (n : String) {found : List String} (searchable : (f (probe k)).harvest = .ok found) :
    ∃ b events, ({ name := n, kind := k } : Blueprint).withRecipe (.shape f) = .ok (b, events) ∧ b.Shapes k n f := by
  obtain rfl := Element.dependencies_of_harvest searchable
  have whole : ∀ m ∈ (f (probe k)).dependencies, Name.relative m = m ∧ m ≠ "" :=
    fun m hm => Element.relative_of_mem_dependencies hm
  have grown := addImports_eq (b := { name := n, kind := k }) (Element.nodup_dependencies _) whole
  refine ⟨{ ({ name := n, kind := k } : Blueprint).addImports (f (probe k)).dependencies with
      recipe := some { Recipe.shape f with seen := [probe k] } },
    [.probed n (f (probe k)).dependencies.length], ?_, ?_⟩
  · have answered : (Recipe.shape f).answer (Recipe.shape f).seen (probe k) = .ok (.given (f (probe k))) := rfl
    simp only [withRecipe, if_true, Recipe.call, answered, Outcome.element?, searchable, Except.ok_bind]
    rfl
  · rw [grown]
    exact ⟨rfl, rfl, by simp, _, rfl⟩

theorem Shapes.tidy (h : b.Shapes k n f) : b.Tidy := by
  constructor
  · rw [h.imports]
    exact Element.nodup_dependencies _
  · rw [h.imports]
    exact fun m hm => Element.relative_of_mem_dependencies hm

theorem Shapes.makes_iff (h : b.Shapes k n f) (kept : Keeps k f) {e : Element} :
    b.Makes e ↔ e = f (.bare k (Name.short n)) := by
  obtain ⟨rfl, rfl, -, seen, recipe⟩ := h
  constructor
  · rintro (⟨none, -⟩ | ⟨r, o, some, answered, declares, -⟩)
    · cases none.symm.trans recipe
    · cases some.symm.trans recipe
      cases answered
      cases declares
      rfl
  · rintro rfl
    exact .inr ⟨_, .given _, recipe, rfl, .given _, (kept _).1⟩

def shapedFile (strictTypes : Bool) (n : String) (uses : Table String) (e : Element) : SourceFile where
  strictTypes := strictTypes
  namespaces := ⟨[(.text (Name.scope n),
    .ofTexts (Name.scope n) uses ⟨[(.text (Name.short n), e)]⟩)]⟩

/-- The imports are what the element depends on, but for itself; where they end differently they go by their ends. -/
structure Uses (n : String) (e : Element) (uses : Table String) : Prop where
  keys : uses.keys = e.dependencies.filter (· ≠ Name.bare n)
  spelled : ∀ u ∈ uses.entries, Namespace.Spelling u.1 u.2
  last : (Name.short n :: uses.keys.map Name.last).Nodup → ∀ u ∈ uses.entries, u.2 = Name.last u.1

theorem Shapes.build (h : b.Shapes k n f) (kept : Keeps k f) (strictTypes : Bool) :
    ∃ uses, (b.build strictTypes).2 = .ok (shapedFile strictTypes n uses (f (.bare k (Name.short n)))) ∧
      Uses n (f (probe k)) uses := by
  have keys := keys_declaring h.tidy
  have makes := (h.makes_iff kept).2 rfl
  obtain ⟨rfl, rfl, imports, -⟩ := h
  obtain ⟨uses, whole, same, spelled⟩ := b.declaring_chosen.exists_ofTexts b.declaring_name
  refine ⟨uses, build_eq_ok.2 ⟨_, makes, ?_⟩, ?_, spelled, fun distinct u hu => ?_⟩
  · rw [fileOf, whole]
    rfl
  · rw [same, keys, imports]
  · have only : b.declaring.elements.keys = [.text b.short] := by
      rw [declaring_elements]
      rfl
    rw [same] at distinct
    have last := b.declaring_chosen.eq_last only distinct (u.1, .text u.2) ?_
    · exact Value.text.inj last
    · rw [whole]
      exact List.mem_map.2 ⟨u, hu, rfl⟩

end Blueprint

namespace Command

open Blueprint

theorem argument_eq_ok {params : Params} {name s : String} (given : params.get? name = some (.text s))
    (filled : s ≠ "") : argument params name = .ok s := by
  rw [argument, given]
  simp [filled]

structure Piece where
  kind : Kind
  name : String
  shape : Element → Element

namespace Piece

variable {p : Piece} {ps : List Piece} {strictTypes : Bool}

structure Fine (p : Piece) : Prop where
  searchable : ∃ found, (p.shape (probe p.kind)).harvest = .ok found
  kept : Keeps p.kind p.shape

/-- What a piece comes to. -/
structure Makes (strictTypes : Bool) (p : Piece) (a : Artifact) : Prop where
  name : a.name = p.name
  kind : a.kind = .kind p.kind
  file : ∃ uses, a.file = shapedFile strictTypes p.name uses (p.shape (.bare p.kind (Name.short p.name))) ∧
    Uses p.name (p.shape (probe p.kind)) uses

def draft (p : Piece) : Except Fault (Blueprint × List Event) :=
  ({ name := p.name, kind := p.kind } : Blueprint).withRecipe (.shape p.shape)

theorem Fine.makes (fine : p.Fine) (strictTypes : Bool) :
    ∃ b events, p.draft = .ok (b, events) ∧ ∃ file, (b.build strictTypes).2 = .ok file ∧
      ∀ key, p.Makes strictTypes ⟨key, b.name, .kind b.kind, file⟩ := by
  obtain ⟨found, searchable⟩ := fine.searchable
  obtain ⟨b, events, drafted, shapes⟩ := exists_shapes p.name searchable
  obtain ⟨uses, built, used⟩ := shapes.build fine.kept strictTypes
  exact ⟨b, events, drafted, _, built, fun key => ⟨shapes.name, congrArg Product.Field.kind shapes.kind, uses, rfl, used⟩⟩

end Piece

theorem collect_go (p : Project) (bs : List (Blueprint × List Event)) :
    ∃ events, collect.go p (bs.map .ok) = (events, .ok (bs.foldl (fun p b => p.addBlueprint b.1) p)) := by
  induction bs generalizing p with
  | nil => exact ⟨[], rfl⟩
  | cons b r ih =>
    obtain ⟨events, rest⟩ := ih (p.addBlueprint b.1)
    refine ⟨b.2 ++ events, ?_⟩
    rw [List.map_cons, collect.go, rest]
    rfl

theorem sources_foldl (p : Project) (bs : List (Blueprint × List Event)) :
    (bs.foldl (fun p b => p.addBlueprint b.1) p).entries.values = p.entries.values ++ bs.map (.held ·.1) := by
  induction bs generalizing p with
  | nil => rw [List.map_nil, List.append_nil]; rfl
  | cons b r ih =>
    rw [List.foldl_cons, ih, Table.values, Project.addBlueprint, Project.entries_add, List.map_append, List.map_cons,
      List.append_assoc]
    rfl

def Piece.Drawn (strictTypes : Bool) (p : Piece) (b : Blueprint × List Event) : Prop :=
  ∃ file, (b.1.build strictTypes).2 = .ok file ∧ ∀ key, p.Makes strictTypes ⟨key, b.1.name, .kind b.1.kind, file⟩

theorem exists_drawn {ps : List Piece} (fine : ∀ p ∈ ps, p.Fine) (strictTypes : Bool) :
    ∃ bs : List (Blueprint × List Event), ps.map Piece.draft = bs.map .ok ∧
      ps.Forall₂ (Piece.Drawn strictTypes) bs := by
  induction ps with
  | nil => exact ⟨[], rfl, .nil⟩
  | cons p r ih =>
    obtain ⟨first, rest⟩ := List.forall_mem_cons.1 fine
    obtain ⟨b, events, drafted, drawn⟩ := first.makes strictTypes
    obtain ⟨bs, later, all⟩ := ih rest
    exact ⟨(b, events) :: bs, by rw [List.map_cons, List.map_cons, drafted, later], .cons drawn all⟩

theorem buildEntries_drawn {ps : List Piece} {bs : List (Blueprint × List Event)} {strictTypes : Bool}
    (drawn : ps.Forall₂ (Piece.Drawn strictTypes) bs) (keys : List String) {es : List (String × Source)}
    (sources : es.map Prod.snd = bs.map (.held ·.1)) :
    ∃ artifacts, (Project.buildEntries strictTypes keys es).result = .ok artifacts ∧
      ps.Forall₂ (Piece.Makes strictTypes) artifacts := by
  induction drawn generalizing es with
  | nil =>
    obtain rfl : es = [] := by simpa using sources
    exact ⟨[], rfl, .nil⟩
  | @cons p b ps bs first _ ih =>
    obtain _ | ⟨⟨key, source⟩, es⟩ := es
    · cases sources
    · obtain ⟨rfl, later⟩ := List.cons.inj sources
      obtain ⟨file, built, made⟩ := first
      obtain ⟨artifacts, rest, all⟩ := ih later
      refine ⟨⟨key, b.1.name, .kind b.1.kind, file⟩ :: artifacts, ?_, .cons (made key) all⟩
      have result := Source.build_held key built
      simp [Project.buildEntries, result, Source.answer, rest]

theorem collect_pieces {ps : List Piece} (fine : ∀ p ∈ ps, p.Fine) (strictTypes : Bool) :
    ∃ events project artifacts, collect (ps.map Piece.draft) = (events, .ok project) ∧
      (project.build strictTypes).result = .ok artifacts ∧ ps.Forall₂ (Piece.Makes strictTypes) artifacts := by
  obtain ⟨bs, drafts, drawn⟩ := exists_drawn fine strictTypes
  obtain ⟨events, collected⟩ := collect_go {} bs
  have sources := sources_foldl {} bs
  rw [show ({} : Project).entries.values = [] from rfl, List.nil_append] at sources
  obtain ⟨artifacts, built, all⟩ := buildEntries_drawn drawn _ sources
  exact ⟨events, _, artifacts, by rw [drafts]; exact collected, built, all⟩

end Command

end PhpScaffold
