import PhpScaffold.Command.Registry
import PhpScaffold.Proofs.Command.Consistency

namespace PhpScaffold

namespace Command

variable {plugins : List Plugin} {all cs : List Command}

/-- What holds of the commands that are installed. -/
structure Installed (plugins : List Plugin) (all : List Command) : Prop where
  distinct : (names all).Nodup
  builtin : ∀ c ∈ builtin, c ∈ all
  origin : ∀ c ∈ all, c ∈ Command.builtin ∨ ∃ p ∈ plugins, p.load = .ok (some c)

theorem install_eq_ok {p : Plugin} (h : install cs p = .ok all) :
    ∃ c, p.load = .ok (some c) ∧ c.name ∉ names cs ∧ all = cs ++ [c] := by
  unfold install at h
  split at h
  · cases h
  · cases h
  · rename_i c loaded
    split at h
    · cases h
    · cases h
      exact ⟨c, loaded, ‹_›, rfl⟩

theorem Installed.install {p : Plugin} (h : Installed plugins cs) (known : p ∈ plugins)
    (installed : install cs p = .ok all) : Installed plugins all := by
  obtain ⟨d, loaded, new, rfl⟩ := install_eq_ok installed
  constructor
  case distinct =>
    rw [names, List.map_append, List.nodup_append]
    refine ⟨h.distinct, List.nodup_singleton _, ?_⟩
    rintro n hn m hm rfl
    exact new (List.mem_singleton.1 hm ▸ hn)
  case builtin => exact fun c hc => List.mem_append_left _ (h.builtin c hc)
  case origin =>
    rw [List.forall_mem_append, List.forall_mem_singleton]
    exact ⟨h.origin, .inr ⟨p, known, loaded⟩⟩

theorem installed_builtin : Installed plugins builtin :=
  ⟨by decide, fun _ h => h, fun _ h => .inl h⟩

theorem Installed.foldlM {ps : List Plugin} (h : Installed plugins cs) (known : ∀ p ∈ ps, p ∈ plugins)
    (installed : ps.foldlM Command.install cs = .ok all) : Installed plugins all := by
  -- for all commands so far, to which each plugin adds its own
  induction ps generalizing cs with
  | nil =>
    cases installed
    exact h
  | cons p r ih =>
    obtain ⟨first, rest⟩ := List.forall_mem_cons.1 known
    rw [List.foldlM_cons] at installed
    obtain ⟨_, one, others⟩ := Except.bind_eq_ok.1 installed
    exact ih (h.install first one) rest others

theorem prefix_of_foldlM {ps : List Plugin} (installed : ps.foldlM install cs = .ok all) : cs <+: all := by
  induction ps generalizing cs with
  | nil =>
    cases installed
    exact List.prefix_refl _
  | cons p r ih =>
    rw [List.foldlM_cons] at installed
    obtain ⟨_, one, others⟩ := Except.bind_eq_ok.1 installed
    obtain ⟨c, -, -, rfl⟩ := install_eq_ok one
    exact (List.prefix_append _ _).trans (ih others)

theorem exists_installed {enabled : List String} (found : discover plugins enabled = .ok cs) :
    ∃ all, Installed plugins all ∧ builtin <+: all ∧ cs.Sublist all := by
  obtain ⟨all, folded, chosen⟩ := Except.bind_eq_ok.1 found
  refine ⟨all, installed_builtin.foldlM (fun _ h => h) folded, prefix_of_foldlM folded, ?_⟩
  split at chosen
  · cases chosen
    exact List.Sublist.refl _
  · dsimp only at chosen
    split at chosen
    · cases chosen
    · cases chosen
      exact List.filter_sublist

section

variable {enabled : List String} (found : discover plugins enabled = .ok cs)

include found

theorem nodup_names_discover : (names cs).Nodup := by
  obtain ⟨all, installed, -, chosen⟩ := exists_installed found
  exact installed.distinct.sublist (chosen.map Command.name)

theorem origin_discover : ∀ c ∈ cs, c ∈ builtin ∨ ∃ p ∈ plugins, p.load = .ok (some c) := by
  obtain ⟨all, installed, -, chosen⟩ := exists_installed found
  exact fun c hc => installed.origin c (chosen.subset hc)

theorem mem_builtin_of_before {front rest : List Command} {c : Command} (split : cs = front ++ c :: rest)
    (own : c ∈ builtin) : ∀ d ∈ front, d ∈ builtin := by
  obtain ⟨all, installed, ⟨more, rfl⟩, chosen⟩ := exists_installed found
  have other : c ∉ more := fun inside => by
    have distinct := installed.distinct
    rw [names, List.map_append] at distinct
    exact (List.nodup_append.1 distinct).2.2 _ (List.mem_map_of_mem own) _ (List.mem_map_of_mem inside) rfl
  intro d inside
  have pair : [d, c].Sublist (builtin ++ more) := by
    refine List.Sublist.trans ?_ chosen
    rw [split]
    exact (List.singleton_sublist.2 inside).append (List.singleton_sublist.2 List.mem_cons_self)
  obtain ⟨_, _, same, first, second⟩ := List.sublist_append_iff.1 pair
  cases List.cons_eq_append_iff.1 same with
  | inl none =>
    obtain ⟨rfl, rfl⟩ := none
    exact absurd (second.subset (List.mem_cons_of_mem _ List.mem_cons_self)) other
  | inr some =>
    obtain ⟨_, rfl, -⟩ := some
    exact first.subset List.mem_cons_self

theorem mem_discover {c : Command} (own : c ∈ builtin) (named : c.name ∈ names cs) : c ∈ cs := by
  obtain ⟨all, installed, -, chosen⟩ := exists_installed found
  obtain ⟨d, hd, same⟩ := List.mem_map.1 named
  obtain rfl := List.inj_on_of_nodup_map installed.distinct (chosen.subset hd) (installed.builtin c own) same
  exact hd

end

theorem find?_name (distinct : (names cs).Nodup) {c : Command} (there : c ∈ cs) :
    cs.find? (·.name = c.name) = some c := by
  have some : (cs.find? (·.name = c.name)).isSome := List.find?_isSome.2 ⟨c, there, decide_eq_true rfl⟩
  obtain ⟨d, found⟩ := Option.isSome_iff_exists.1 some
  have same : d.name = c.name := by simpa using List.find?_some found
  rw [found, List.inj_on_of_nodup_map distinct (List.mem_of_find?_eq_some found) there same]

end Command

def Blueprint.Named (b : Blueprint) : Prop := ∀ e, b.Makes e → e.name = .text b.short

namespace Project

variable {p : Project} {strictTypes : Bool} {artifacts : List Artifact}

/-- A project of blueprints, with no factory in it and no recipe that renames what it is given. -/
def Held (p : Project) : Prop := ∀ e ∈ p.entries.entries, ∃ b, e.2 = .held b ∧ b.Named

theorem Held.addBlueprint (h : p.Held) {b : Blueprint} (named : b.Named) : (p.addBlueprint b).Held := by
  rw [Held, Project.addBlueprint, entries_add, List.forall_mem_append, List.forall_mem_singleton]
  exact ⟨h, b, rfl, named⟩

theorem Held.className (h : p.Held) (built : (p.build strictTypes).result = .ok artifacts) :
    ∀ a ∈ artifacts, Config.className a.name a.file = .text (Name.short a.name) := by
  intro a ha
  obtain ⟨_, made, gives, -⟩ | ⟨_, _, _, _, _, -, failed, -⟩ := build_first_failure strictTypes p
  · cases made.symm.trans built
    obtain ⟨e, he, given⟩ := gives.flip.exists_of_mem ha
    obtain ⟨b, held, named⟩ := h e he
    rw [held] at given
    cases given with
    | file asked fits made =>
      cases asked
      cases fits.named
      cases fits.built
      obtain ⟨e, makes, rfl⟩ := Blueprint.build_eq_ok.1 made
      exact (Config.className_of_declares (b.declares_fileOf strictTypes e)).trans (named e makes)
  · cases failed.symm.trans built

end Project

namespace Config

variable {c : Config} {engine : Engine} {t : Tree} {p : Project} {shown : List Preview}

theorem forall₂_previewAll {artifacts : List Artifact} {before : List (Tree × SourceFile)}
    (h : (c.previewAll engine t artifacts before).2 = .ok shown) :
    artifacts.Forall₂ (fun a q => q.className = className a.name a.file) shown := by
  induction artifacts generalizing before shown with
  | nil =>
    cases h
    exact .nil
  | cons a r ih =>
    rw [previewAll] at h
    cases first : c.preview (c.layouts engine before t) a.name a.file with
    | error f =>
      rw [first] at h
      cases h
    | ok q =>
      rw [first] at h
      obtain ⟨others, rest, all⟩ := Except.bind_eq_ok.1 h
      cases all
      obtain ⟨content, -, made⟩ := Except.bind_eq_ok.1 first
      cases made
      exact .cons rfl (ih rest)

theorem className_previews (held : p.Held) (h : (c.previews engine t p).result = .ok shown) :
    ∀ q ∈ shown, ∃ short, q.className = .text short := by
  rw [(c.previews_eq engine t p).2] at h
  obtain ⟨artifacts, batch, all⟩ := Except.bind_eq_ok.1 h
  obtain ⟨-, -, built⟩ := Except.bind_eq_ok.1 batch
  intro q hq
  obtain ⟨a, ha, named⟩ := (forall₂_previewAll all).flip.exists_of_mem hq
  exact ⟨_, named.trans (held.className built a ha)⟩

end Config

namespace Command

def Drafts (steps : List (Except Fault (Blueprint × List Event))) : Prop :=
  ∀ b events, .ok (b, events) ∈ steps → b.Named

theorem held_go {steps : List (Except Fault (Blueprint × List Event))} {start p : Project} (held : start.Held)
    (drafts : Drafts steps) (made : (collect.go start steps).2 = .ok p) : p.Held := by
  induction steps generalizing start with
  | nil =>
    cases made
    exact held
  | cons s r ih =>
    cases s with
    | error f => cases made
    | ok b =>
      exact ih (held.addBlueprint (drafts b.1 b.2 List.mem_cons_self))
        (fun b events later => drafts b events (List.mem_cons_of_mem _ later)) made

theorem held_collect {steps : List (Except Fault (Blueprint × List Event))} {p : Project} (drafts : Drafts steps)
    (made : (collect steps).2 = .ok p) : p.Held :=
  have none : Project.Held {} := List.forall_mem_nil _
  held_go none drafts made

section

variable {b : Blueprint} {events : List Event} {k : Kind} {n : String} {f : Element → Element}

theorem named_shaped (keeps : Blueprint.Keeps k f) (made : shaped k n f = .ok (b, events)) : b.Named := by
  cases searched : (f (Blueprint.probe k)).harvest with
  | error fault =>
    simp [shaped, Blueprint.withRecipe, Recipe.call, Recipe.shape, Recipe.steady, Outcome.element?, searched] at made
  | ok found =>
    obtain ⟨_, _, drafted, shapes⟩ := Blueprint.exists_shapes n searched
    cases drafted.symm.trans made
    intro e makes
    rw [(shapes.makes_iff keeps).1 makes, (keeps _).2, Blueprint.short, shapes.name]

theorem drafts_shaped {ps : List Piece} (keeps : ∀ p ∈ ps, Blueprint.Keeps p.kind p.shape) :
    Drafts (ps.map Piece.draft) := by
  intro b events there
  obtain ⟨p, hp, drafted⟩ := List.mem_map.1 there
  exact named_shaped (keeps p hp) drafted

end

theorem Layout.keeps (l : Layout) : ∀ p ∈ l.pieces, Blueprint.Keeps p.kind p.shape := by
  have carriers : ∀ c ∈ l.carriers, Blueprint.Keeps (l.carrierPiece c).kind (l.carrierPiece c).shape :=
    fun _ _ _ => ⟨rfl, rfl⟩
  rw [pieces, List.cons_append, List.forall_mem_cons, List.forall_mem_append, List.forall_mem_map, List.forall_mem_cons,
    List.forall_mem_singleton]
  exact ⟨fun _ => ⟨rfl, rfl⟩, carriers, fun _ => ⟨rfl, rfl⟩, fun _ => ⟨rfl, rfl⟩⟩

theorem held_handle {c : Command} (own : c ∈ builtin) {params : Params} {p : Project}
    (made : (c.handle params).2 = .ok p) : p.Held := by
  have laid (side : Side) (subject : String) (f : Operation → List (Except Fault (Blueprint × List Event)))
      (drafts : ∀ o, Drafts (f o)) (made : (laidOut side params subject f).2 = .ok p) : p.Held := by
    unfold laidOut at made
    split at made
    · cases made
    · cases made
    · exact held_collect (drafts _) made
  obtain rfl | rfl | rfl | rfl : c = createClass ∨ c = createData ∨ c = generateQuery ∨ c = generateCommand := by
    simpa [builtin] using own
  · refine held_collect (fun b events there => ?_) made
    obtain ⟨name, -, drafted⟩ := Except.bind_eq_ok.1 (List.mem_singleton.1 there).symm
    cases drafted
    rintro e (⟨-, rfl⟩ | ⟨_, _, ⟨⟩, -⟩)
    rfl
  · refine held_collect (fun b events there => ?_) made
    obtain ⟨name, -, drafted⟩ := Except.bind_eq_ok.1 (List.mem_singleton.1 there).symm
    split at drafted
    · exact named_shaped (fun _ => ⟨rfl, rfl⟩) drafted
    · exact named_shaped (fun _ => ⟨rfl, rfl⟩) drafted
    · exact named_shaped (fun _ => ⟨rfl, rfl⟩) drafted
    · cases drafted
  · refine laid .query "queryName" (fun o => queryBlueprints o (isOn params "no-query")) (fun o => ?_) made
    rw [queryBlueprints_eq]
    exact drafts_shaped (Layout.keeps _)
  · refine laid .command "commandName"
      (fun o => commandBlueprints o (isOn params "no-command") (!isOn params "no-return-id")) (fun o => ?_) made
    rw [commandBlueprints_eq]
    exact drafts_shaped (Layout.keeps _)

end Command

end PhpScaffold
