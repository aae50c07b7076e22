import PhpScaffold.Proofs.Command.Registry
import PhpScaffold.Proofs.CommandLine.Params

namespace PhpScaffold

open CommandLine in
/-- A plugin whose command goes on a command line beside the names that the program has of its own. -/
def Plugin.Listable (p : Plugin) : Prop :=
  ∀ c, p.load = .ok (some c) → c.name ∉ [listName, serveName] ∧ ∃ g, ofCommand c = .ok g

namespace CommandLine

variable {gs gs' : Grammars} {cs : List Command} {name : String}

theorem Grammars.add_eq_ok {g : Except Fault Grammar} : gs.add name g = .ok gs' ↔
    name ∉ gs.map Prod.fst ∧ ∃ made, g = .ok made ∧ gs' = gs ++ [(name, made)] := by
  have there : (gs.lookup name).isSome = true ↔ name ∈ gs.map Prod.fst := by
    rw [List.lookup_isSome_iff, List.mem_map]
    exact exists_congr fun e => and_congr_right fun _ => beq_iff_eq.trans eq_comm
  unfold add
  split
  · simp [there.1 ‹_›]
  · rename_i new
    rw [there] at new
    cases g <;> simp [new, eq_comm]

def Made (ms : List (String × Except Fault Grammar)) (es : Grammars) : Prop :=
  ms.Forall₂ (fun m e => m.1 = e.1 ∧ m.2 = .ok e.2) es

theorem Made.names {ms : List (String × Except Fault Grammar)} {es : Grammars} (h : Made ms es) :
    es.map Prod.fst = ms.map Prod.fst := by
  induction h with
  | nil => rfl
  | cons first _ rest => rw [List.map_cons, List.map_cons, rest, first.1]

theorem exists_made {ms : List (String × Except Fault Grammar)} (made : ∀ m ∈ ms, ∃ g, m.2 = .ok g) :
    ∃ es, Made ms es := by
  induction ms with
  | nil => exact ⟨[], .nil⟩
  | cons m r ih =>
    obtain ⟨⟨g, first⟩, others⟩ := List.forall_mem_cons.1 made
    obtain ⟨es, rest⟩ := ih others
    exact ⟨(m.1, g) :: es, .cons ⟨rfl, first⟩ rest⟩

theorem foldlM_add_eq_ok {ms : List (String × Except Fault Grammar)} (distinct : (gs.map Prod.fst).Nodup) :
    ms.foldlM (fun gs m => Grammars.add gs m.1 m.2) gs = .ok gs' ↔
      ∃ es, Made ms es ∧ gs' = gs ++ es ∧ (gs'.map Prod.fst).Nodup := by
  induction ms generalizing gs with
  | nil =>
    constructor
    · intro h
      cases h
      exact ⟨[], .nil, by simp, distinct⟩
    · rintro ⟨_, ⟨⟩, rfl, -⟩
      rw [List.append_nil]
      rfl
  | cons m r ih =>
    have still {g : Grammar} : m.1 ∉ gs.map Prod.fst ↔ ((gs ++ [(m.1, g)]).map Prod.fst).Nodup := by
      rw [List.map_append, List.map_singleton, ← List.concat_eq_append, List.nodup_concat]
      exact (and_iff_left distinct).symm
    rw [List.foldlM_cons, Except.bind_eq_ok]
    constructor
    · rintro ⟨_, first, others⟩
      obtain ⟨new, g, own, rfl⟩ := Grammars.add_eq_ok.1 first
      obtain ⟨es, rest, rfl, all⟩ := (ih (still.1 new)).1 others
      exact ⟨(m.1, g) :: es, .cons ⟨rfl, own⟩ rest, by simp, all⟩
    · rintro ⟨_, made, rfl, all⟩
      cases made with
      | @cons _ e _ es first rest =>
        obtain ⟨name, g⟩ := e
        obtain ⟨rfl, own⟩ : m.1 = name ∧ m.2 = .ok g := first
        have shape : gs ++ (m.1, g) :: es = gs ++ [(m.1, g)] ++ es := List.append_cons ..
        have new : ((gs ++ [(m.1, g)]).map Prod.fst).Nodup := by
          rw [shape, List.map_append] at all
          exact (List.nodup_append.1 all).1
        exact ⟨_, Grammars.add_eq_ok.2 ⟨still.2 new, g, own, rfl⟩, (ih new).2 ⟨es, rest, shape, all⟩⟩

def wanted (cs : List Command) : List (String × Except Fault Grammar) :=
  cs.map (fun c => (c.name, ofCommand c)) ++ [(listName, .ok listGrammar), (serveName, .ok serveGrammar)]

theorem grammars_eq_ok : grammars cs = .ok gs ↔ Made (wanted cs) gs ∧ (gs.map Prod.fst).Nodup := by
  have folded : grammars cs = (wanted cs).foldlM (fun gs m => Grammars.add gs m.1 m.2) [] := by
    rw [wanted, List.foldlM_append, List.foldlM_map]
    simp [grammars, -Except.pure_eq]
  rw [folded, @foldlM_add_eq_ok [] gs _ List.nodup_nil]
  simp

theorem names_grammars (made : grammars cs = .ok gs) : gs.map Prod.fst = Command.names cs ++ [listName, serveName] := by
  rw [(grammars_eq_ok.1 made).1.names]
  simp [wanted, Command.names]

theorem lookup_grammars (made : grammars cs = .ok gs) {c : Command} (there : c ∈ cs) {g : Grammar}
    (own : ofCommand c = .ok g) : gs.lookup c.name = some g := by
  obtain ⟨all, distinct⟩ := grammars_eq_ok.1 made
  have inside : (c.name, ofCommand c) ∈ wanted cs := List.mem_append_left _ (List.mem_map.2 ⟨c, there, rfl⟩)
  obtain ⟨⟨_, g'⟩, he, rfl, own'⟩ := List.Forall₂.exists_of_mem all inside
  obtain rfl : g = g' := Except.ok.inj (own.symm.trans own')
  exact (Table.mem_entries_iff (t := ⟨gs⟩) distinct).1 he

theorem exists_grammars {plugins : List Plugin} (listable : ∀ p ∈ plugins, p.Listable) {enabled : List String}
    (found : Command.discover plugins enabled = .ok cs) : ∃ gs, grammars cs = .ok gs := by
  have each : ∀ c ∈ cs, c.name ∉ [listName, serveName] ∧ ∃ g, ofCommand c = .ok g := by
    intro c hc
    obtain own | ⟨p, hp, loaded⟩ := Command.origin_discover found c hc
    · have offers := offers_builtin c own
      exact ⟨offers.free, _, offers.made⟩
    · exact listable p hp c loaded
  have made : ∀ m ∈ wanted cs, ∃ g, m.2 = .ok g := by
    simp only [wanted, List.forall_mem_append, List.forall_mem_map, List.forall_mem_cons]
    exact ⟨fun c hc => (each c hc).2, ⟨_, rfl⟩, ⟨_, rfl⟩, List.forall_mem_nil _⟩
  obtain ⟨gs, all⟩ := exists_made made
  refine ⟨gs, grammars_eq_ok.2 ⟨all, ?_⟩⟩
  have names : gs.map Prod.fst = Command.names cs ++ [listName, serveName] := by
    rw [all.names]
    simp [wanted, Command.names]
  rw [names, List.nodup_append]
  refine ⟨Command.nodup_names_discover found, by decide, ?_⟩
  rintro n hn m hm rfl
  obtain ⟨c, hc, rfl⟩ := List.mem_map.1 hn
  exact (each c hc).1 hm

def settingsPlace (cwd : Path) (dir : String) : Path := if dir.isEmpty then cwd else cwd.child dir

section

variable {c : Command} {items : List Item} {dir : String} {t : Tree} {cwd : Path} {host : Host}

theorem Offers.takes_eq_false (offers : Offers c) {i : Invocation} (known : gs.lookup i.command = some (grammar c))
    {key : String} (own : key ∈ ownKeys) (other : key ∉ ["", "verbose"]) : takes gs i key = false := by
  have new := offers.key_not_mem own
  obtain ⟨empty, verbose⟩ : key ≠ "" ∧ key ≠ "verbose" := by simpa using other
  rw [takes, known, Option.any_some, Bool.or_eq_false_iff, List.any_eq_false, List.any_eq_false]
  constructor
  · intro p hp
    obtain ⟨a, ha, rfl⟩ := List.mem_map.1 hp
    refine fun same => new (of_decide_eq_true same ▸ ?_)
    exact List.mem_append_left _ (List.mem_append_left _ (List.mem_map_of_mem ha))
  · intro f hf same
    simp only [grammar, flags, List.mem_append, List.mem_cons, List.mem_map, List.not_mem_nil, or_false] at hf
    obtain ((rfl | rfl) | ⟨o, ho, rfl⟩) | rfl := hf
    · exact empty (of_decide_eq_true same).symm
    · exact verbose (of_decide_eq_true same).symm
    · refine new (of_decide_eq_true same ▸ ?_)
      exact List.mem_append_left _ (List.mem_append_right _ (List.mem_map_of_mem (f := fun o => optionKey o.name) ho))
    · exact new (of_decide_eq_true same ▸ List.mem_append_right _ List.mem_cons_self)

variable (offers : Offers c) (fits : ∀ i ∈ items, i.Fits (grammar c)) (place : IsText dir)

include offers fits place

theorem Offers.exists_read : ∃ r, configGrammar.read (line dir c items) = .ok r ∧
    ∀ cwd, configPlace cwd r = settingsPlace cwd dir := by
  obtain ⟨r, read, config⟩ := offers.read_config fits place
  refine ⟨r, read, fun cwd => ?_⟩
  rw [configPlace, config]
  rfl

theorem Offers.run_unprepared {f : Fault} (failed : prepare t (settingsPlace cwd dir) host.plugins = .error f) :
    run t cwd host (line dir c items) = .error f ∨
      ∃ o, run t cwd host (line dir c items) = .ok o ∧ o.tree = t ∧ o.code = 1 := by
  obtain ⟨r, read, here⟩ := offers.exists_read fits place
  simp only [run, read, here, failed]
  split
  · exact .inr ⟨_, rfl, rfl, rfl⟩
  · exact .inl rfl

variable {cfg : Config} (prepared : prepare t (settingsPlace cwd dir) host.plugins = .ok (cfg, cs))
  (listed : grammars cs = .ok gs)

include prepared listed

theorem Offers.run_prepared : run t cwd host (line dir c items) =
    match Invocation.read gs (line dir c items) with
    | .error h => .ok (halted t h)
    | .ok i => perform t cwd host cfg cs gs i := by
  obtain ⟨r, read, here⟩ := offers.exists_read fits place
  simp only [run, read, here, prepared, listed, Except.ok_bind]
  cases Invocation.read gs (line dir c items) <;> rfl

theorem Offers.run_unknown (unknown : c.name ∉ Command.names cs) :
    ∃ o, run t cwd host (line dir c items) = .ok o ∧ o.tree = t ∧ o.code = 2 := by
  have new : c.name ∉ gs.map Prod.fst := by
    rw [names_grammars listed, List.mem_append]
    exact not_or.2 ⟨unknown, offers.free⟩
  have refused : Invocation.read gs (line dir c items) =
      .error ⟨program, .refused (.notChoice commandKey c.name (gs.map Prod.fst))⟩ := by
    rw [Invocation.read, offers.read_main_unknown fits place new]
    rfl
  rw [offers.run_prepared fits place prepared listed, refused]
  exact ⟨_, rfl, rfl, rfl⟩

theorem Offers.run_known (distinct : (Command.names cs).Nodup) (there : c ∈ cs)
    (enough : (Item.texts items).length = c.arguments.length) :
    let w := work t cwd host cfg c (params c items) (asked items dryRunFlag.key) (asked items "verbose")
    ∃ o, run t cwd host (line dir c items) = .ok o ∧ o.tree = w.tree ∧ o.stdout = printed w.lines ∧
      o.code = if w.fault.isSome then 1 else 0 := by
  intro w
  have known : gs.lookup c.name = some (grammar c) := lookup_grammars listed there offers.made
  have read : Invocation.read gs (line dir c items) = .ok (invocation gs dir c items) :=
    offers.read_line fits enough place known
  have verbose : (invocation gs dir c items).truthy "verbose" = asked items "verbose" := by
    rw [Invocation.truthy, offers.get?_verbose fits]
    rfl
  have dry : (invocation gs dir c items).truthy "dry_run" = asked items dryRunFlag.key := by
    have stored := @Offers.get?_dryRun c items dir gs offers fits
    rw [Invocation.truthy]
    change (((invocation gs dir c items).values.get? dryRunFlag.key).getD .null).truthy = _
    rw [stored]
    rfl
  have logs : logging gs (invocation gs dir c items) = .ok { verbose := asked items "verbose" } := by
    rw [logging, offers.get?_log fits, verbose]
    rfl
  obtain ⟨lists, serves⟩ : (c.name == listName) = false ∧ (c.name == serveName) = false := by
    simpa using offers.free
  have handles : handler gs (invocation gs dir c items) c = .ok c := by
    have free := @Offers.takes_eq_false gs c offers (invocation gs dir c items) known handlerKey (by simp [ownKeys])
      (by decide)
    rw [handler, free]
    rfl
  rw [offers.run_prepared fits place prepared listed, read]
  simp only [perform, logs, Except.ok_bind, Logging.openFile, Except.pure_eq, offers.get?_command fits,
    Option.any_some, Value.same_text, lists, serves, Bool.false_eq_true, if_false]
  have found : cs.find? (·.name = (invocation gs dir c items).command) = some c := Command.find?_name distinct there
  simp only [found, handles, offers.params_invocation fits enough, dry]
  exact ⟨_, rfl, rfl, rfl, rfl⟩

end

end CommandLine

end PhpScaffold
