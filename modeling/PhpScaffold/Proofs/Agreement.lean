import PhpScaffold.Proofs.CommandLine.Printed
import PhpScaffold.Proofs.CommandLine.Run
import PhpScaffold.Proofs.Config.Load
import PhpScaffold.Proofs.Service.Call
import PhpScaffold.Proofs.Tool.Validate

/-! The two front ends agree.  A command line and a request that say the same make a command do the same: they give it
the same parameters, leave the same files, and tell of the same files and previews, or both tell of a failure. -/

namespace PhpScaffold

open CommandLine (Item)

namespace Command

def carryOut (t : Tree) (engine : Engine) (cfg : Config) (c : Command) (params : Params) (dryRun : Bool) :
    Tree × Except Fault (List Path × List Preview) :=
  match (c.handle params).2 with
  | .error f => (t, .error f)
  | .ok p =>
    if dryRun then (t, (cfg.previews engine t p).result.map ([], ·))
    else ((cfg.generate engine t p false).tree, (cfg.generate engine t p false).result.map (·, []))

variable {t : Tree} {engine : Engine} {cfg : Config} {c : Command} {ps : Params} {dryRun : Bool}

theorem carryOut_dry : (carryOut t engine cfg c ps true).1 = t := by
  unfold carryOut
  split <;> rfl

theorem className_carryOut (own : c ∈ builtin) {paths : List Path} {shown : List Preview}
    (done : (carryOut t engine cfg c ps dryRun).2 = .ok (paths, shown)) :
    ∀ q ∈ shown, ∃ short, q.className = .text short := by
  unfold carryOut at done
  split at done
  · cases done
  · rename_i p made
    cases dryRun with
    | false =>
      rw [if_neg Bool.false_ne_true] at done
      obtain ⟨paths, -, same⟩ := Except.map_eq_ok.1 done
      cases same
      exact List.forall_mem_nil _
    | true =>
      rw [if_pos rfl] at done
      obtain ⟨found, result, same⟩ := Except.map_eq_ok.1 done
      cases same
      exact Config.className_previews (held_handle own made) result

end Command

namespace CommandLine

variable {t : Tree} {cwd : Path} {host : Host} {cfg : Config} {c : Command} {ps : Params} {dryRun verbose : Bool}

theorem encode_head (dryRun : Bool) : host.output.encode
    (if dryRun then "Preview mode - no files will be created" else "Generating files...") = .ok () := by
  cases dryRun <;> exact host.output.ascii _ (by decide)

theorem say_toldLines (paths : List Path) (shown : List Preview) :
    host.output.say (toldLines dryRun verbose cwd paths shown) =
      let head := if dryRun then "Preview mode - no files will be created" else "Generating files..."
      let rest := if dryRun then previewsLines verbose cwd shown
        else paths.map (fun q => "Generated " ++ (q.relativeTo cwd).text) ++ ["Code generation completed successfully!"]
      (head :: (host.output.say rest).1, (host.output.say rest).2) := by
  have head := @encode_head host dryRun
  cases dryRun <;> simp_all [toldLines, Output.say]

theorem work_cases :
    (work t cwd host cfg c ps dryRun verbose).tree = (c.carryOut t host.engine cfg ps dryRun).1 ∧
      ((∃ f, (c.carryOut t host.engine cfg ps dryRun).2 = .error f ∧
          (work t cwd host cfg c ps dryRun verbose).fault = some f) ∨
        ∃ paths shown, (c.carryOut t host.engine cfg ps dryRun).2 = .ok (paths, shown) ∧
          ((work t cwd host cfg c ps dryRun verbose).lines, (work t cwd host cfg c ps dryRun verbose).fault) =
            host.output.say (toldLines dryRun verbose cwd paths shown)) := by
  have head := @encode_head host dryRun
  rcases handled : c.handle ps with ⟨events, _ | p⟩
  · simp [work, Command.carryOut, handled]
  · cases dryRun with
    | true =>
      cases result : (cfg.previews host.engine t p).result with
      | error f => simp_all [work, Command.carryOut, Except.map]
      | ok shown => simp_all [work, Command.carryOut, Except.map, say_toldLines]
    | false =>
      cases result : (cfg.generate host.engine t p false).result with
      | error f => simp_all [work, Command.carryOut, Except.map]
      | ok paths => simp_all [work, Command.carryOut, Except.map, say_toldLines]

end CommandLine

namespace Service

variable {t : Tree} {engine : Engine} {cfg : Config} {c : Command} {values : Table Value}

theorem perform_eq : perform t engine cfg c values =
    ((c.carryOut t engine cfg (Tool.params c values) (Tool.isDryRun values)).1,
      (c.carryOut t engine cfg (Tool.params c values) (Tool.isDryRun values)).2.map fun done =>
        report c (Tool.isDryRun values) done.1 done.2) := by
  rcases handled : c.handle (Tool.params c values) with ⟨events, _ | p⟩
  · simp [perform, Command.carryOut, handled, Except.map]
  · cases dry : Tool.isDryRun values with
    | true =>
      cases result : (cfg.previews engine t p).result <;>
        simp [perform, Command.carryOut, handled, dry, result, Except.map]
    | false =>
      cases result : (cfg.generate engine t p false).result <;>
        simp [perform, Command.carryOut, handled, dry, result, Except.map]

end Service

namespace CommandLine

def succeeded : Except Fault Outcome → Bool
  | .ok o => o.code = 0
  | .error _ => false

/-- The files that a run leaves; one that a fault escapes from has not changed any. -/
def left (t : Tree) : Except Fault Outcome → Tree
  | .ok o => o.tree
  | .error _ => t

end CommandLine

open CommandLine Service in
/-- A run of the program and an answer of the service that make the same of a command and its parameters. -/
inductive Agree (t : Tree) (place cwd : Path) (host : Host) (c : Command) (ps : Params) (dryRun verbose : Bool) :
    Except Fault CommandLine.Outcome → Tree × Response → Prop
  | failed {run : Except Fault CommandLine.Outcome} {u : Tree} {r : Response} :
    succeeded run = false → left t run = u → (dryRun → u = t) → r.status ≠ 200 →
      Agree t place cwd host c ps dryRun verbose run (u, r)
  | done {cfg : Config} {o : CommandLine.Outcome} {paths : List Path} {shown : List Preview} :
    Config.load t place = .ok cfg → c.carryOut t host.engine cfg ps dryRun = (o.tree, .ok (paths, shown)) →
    (dryRun → o.tree = t) → o.code = 0 → o.stdout = printed (toldLines dryRun verbose cwd paths shown) →
      Agree t place cwd host c ps dryRun verbose (.ok o) (o.tree, ⟨200, .json (report c dryRun paths shown)⟩)
  /-- Both carry it out and the program tells of it, but the service has no answer that could hold what it found. -/
  | unsent {cfg : Config} {o : CommandLine.Outcome} {paths : List Path} {shown : List Preview} {s : String}
    {r : Response} :
    Config.load t place = .ok cfg → c.carryOut t host.engine cfg ps dryRun = (o.tree, .ok (paths, shown)) →
    (dryRun → o.tree = t) → o.code = 0 → o.stdout = printed (toldLines dryRun verbose cwd paths shown) →
    s ∈ paths.map Path.text ++ shown.flatMap texts → ¬ IsStorable s → r.status = 400 →
      Agree t place cwd host c ps dryRun verbose (.ok o) (o.tree, r)
  /-- Both carry it out and the service tells of it, but the program has an output that does not carry one of its
  lines.  In UTF-8 it would. -/
  | unprinted {cfg : Config} {o : CommandLine.Outcome} {paths : List Path} {shown : List Preview} {s : String} :
    Config.load t place = .ok cfg → c.carryOut t host.engine cfg ps dryRun = (o.tree, .ok (paths, shown)) →
    (dryRun → o.tree = t) → o.code = 1 → s ∈ toldLines dryRun verbose cwd paths shown →
    host.output.encode s ≠ .ok () → Output.utf8.encode s = .ok () →
      Agree t place cwd host c ps dryRun verbose (.ok o) (o.tree, ⟨200, .json (report c dryRun paths shown)⟩)

section

variable {t : Tree} {cwd : Path} {host : Host} {cfg : Config} {c : Command} {dir : String} {items : List Item}
  {cs : List Command}

open CommandLine Service

theorem agree_work {place : Path} (own : c ∈ Command.builtin) (loaded : Config.load t place = .ok cfg) {ps : Params}
    {dryRun verbose : Bool} {o : CommandLine.Outcome} (tree : o.tree = (work t cwd host cfg c ps dryRun verbose).tree)
    (stdout : o.stdout = printed (work t cwd host cfg c ps dryRun verbose).lines)
    (code : o.code = if (work t cwd host cfg c ps dryRun verbose).fault.isSome then 1 else 0) :
    Agree t place cwd host c ps dryRun verbose (.ok o) ((c.carryOut t host.engine cfg ps dryRun).1,
      (answer ((c.carryOut t host.engine cfg ps dryRun).2.map fun done => report c dryRun done.1 done.2)).sent) := by
  have dry : dryRun → (c.carryOut t host.engine cfg ps dryRun).1 = t := by
    rintro rfl
    exact Command.carryOut_dry
  obtain ⟨left, ⟨f, failed, fault⟩ | ⟨paths, shown, done, said⟩⟩ := @work_cases t cwd host cfg c ps dryRun verbose
  · rw [failed]
    refine .failed ?_ (tree.trans left) dry (status_sent (status_refusal f))
    rw [succeeded, code, fault]
    rfl
  · have whole : c.carryOut t host.engine cfg ps dryRun = (o.tree, .ok (paths, shown)) :=
      Prod.ext (tree.trans left).symm done
    rw [done, ← tree.trans left]
    rw [← tree.trans left] at dry
    have sent := sentIf_report (reached_builtin c own).storable dryRun paths (Command.className_carryOut own done)
    by_cases stored : ∀ s ∈ paths.map Path.text ++ shown.flatMap texts, IsStorable s
    · have reported := sent.sent_answer.1 stored
      rw [Except.map, reported]
      obtain ⟨all, -⟩ | ⟨_, s, _, f, lines, some, refused, -⟩ :=
        host.output.say_cases (toldLines dryRun verbose cwd paths shown)
      · obtain ⟨printed, faultless⟩ := Prod.mk.inj (said.trans all)
        exact .done loaded whole dry (by rw [code, faultless]; rfl) (by rw [stdout, printed])
      · obtain ⟨-, fault⟩ := Prod.mk.inj (said.trans some)
        have there : s ∈ toldLines dryRun verbose cwd paths shown := lines ▸ by simp
        exact .unprinted loaded whole dry (by rw [code, fault]; rfl) there (by simp [refused])
          (storable_eq_ok.2 (isStorable_toldLines dryRun verbose cwd stored s there))
    · have unsaid := sent.sent_answer.2 stored
      rw [Except.map]
      obtain ⟨all, -⟩ | ⟨_, s, _, f, -, some, -⟩ :=
        host.output.say_cases (toldLines dryRun verbose cwd paths shown)
      · obtain ⟨printed, faultless⟩ := Prod.mk.inj (said.trans all)
        simp only [not_forall] at stored
        obtain ⟨s, there, unstorable⟩ := stored
        exact .unsent loaded whole dry (by rw [code, faultless]; rfl) (by rw [stdout, printed]) there unstorable unsaid
      · obtain ⟨-, fault⟩ := Prod.mk.inj (said.trans some)
        exact .failed (by rw [succeeded, code, fault]; rfl) rfl dry (by rw [unsaid]; decide)

theorem agree_unprepared {place : Path} {ps : Params} {dryRun verbose : Bool}
    {run : Except Fault CommandLine.Outcome} {f : Fault}
    (stopped : run = .error f ∨ ∃ o, run = .ok o ∧ o.tree = t ∧ o.code = 1) :
    Agree t place cwd host c ps dryRun verbose run (t, (refusal f).sent) := by
  have refused := status_sent (status_refusal f)
  obtain rfl | ⟨o, rfl, tree, code⟩ := stopped
  · exact .failed rfl rfl (fun _ => rfl) refused
  · exact .failed (by rw [succeeded, code]; rfl) tree (fun _ => rfl) refused

variable (own : c ∈ Command.builtin) (fits : ∀ i ∈ items, i.Fits (grammar c))
  (enough : (Item.texts items).length = c.arguments.length) {given : List (Value × Value)}
  (tells : Tool.Tells c items given) (place : IsText dir)

include own fits enough tells place

/-- The command line and the request give a command the same parameters, and both want a dry run or neither does. -/
theorem exists_parameters {gs : Grammars} (listed : grammars cs = .ok gs) (there : c ∈ cs) :
    ∃ i values, Invocation.read gs (line dir c items) = .ok i ∧ i.command = c.name ∧
      Tool.validate c given = .ok values ∧ i.params c = params c items ∧ Tool.params c values = params c items ∧
      Tool.isDryRun values = i.truthy dryRunFlag.key := by
  have offers := offers_builtin c own
  have checks := Tool.fits_builtin c own
  refine ⟨invocation gs dir c items, Tool.checked c given,
    offers.read_line fits enough place (lookup_grammars listed there offers.made), rfl,
    checks.validate_eq tells offers fits, offers.params_invocation fits enough,
    checks.params_checked tells offers fits, ?_⟩
  rw [checks.isDryRun_checked tells offers fits, Invocation.truthy, offers.get?_dryRun fits]
  rfl

variable {q : Request} (posted : q.method = "POST") (path : q.path = Route.toolLead ++ c.name)
  (body : parameters q.body = .ok given)

include posted path body

theorem carried_out {gs : Grammars} (loaded : Config.load t (settingsPlace cwd dir) = .ok cfg)
    (found : Command.discover host.plugins cfg.commands = .ok cs) (listed : grammars cs = .ok gs) (there : c ∈ cs) :
    let w := work t cwd host cfg c (params c items) (asked items dryRunFlag.key) (asked items "verbose")
    let d := c.carryOut t host.engine cfg (params c items) (asked items dryRunFlag.key)
    (∃ o, run t cwd host (line dir c items) = .ok o ∧ o.tree = w.tree ∧ o.stdout = printed w.lines ∧
        o.code = if w.fault.isSome then 1 else 0) ∧
      respond t (settingsPlace cwd dir) host q =
        (d.1, (answer (d.2.map fun done => report c (asked items dryRunFlag.key) done.1 done.2)).sent) := by
  have offers := offers_builtin c own
  have reached := reached_builtin c own
  have checks := Tool.fits_builtin c own
  have prepared : prepare t (settingsPlace cwd dir) host.plugins = .ok (cfg, cs) := by
    rw [prepare, loaded, Except.ok_bind, found]
    rfl
  constructor
  · exact offers.run_known fits place prepared listed (Command.nodup_names_discover found) there enough
  · rw [respond_call reached posted path body,
      call_known loaded found reached there (checks.validate_eq tells offers fits), perform_eq,
      checks.params_checked tells offers fits, checks.isDryRun_checked tells offers fits]

theorem agree (listable : ∀ p ∈ host.plugins, p.Listable) (t : Tree) (cwd : Path) :
    Agree t (settingsPlace cwd dir) cwd host c (params c items) (asked items dryRunFlag.key) (asked items "verbose")
      (run t cwd host (line dir c items)) (respond t (settingsPlace cwd dir) host q) := by
  have offers := offers_builtin c own
  have reached := reached_builtin c own
  have called := @respond_call c t (settingsPlace cwd dir) host q given reached posted path body
  cases loaded : Config.load t (settingsPlace cwd dir) with
  | error f =>
    rw [called, call_unloaded loaded]
    refine agree_unprepared (offers.run_unprepared fits place ?_)
    rw [prepare, loaded, Except.error_bind]
  | ok cfg =>
    cases found : Command.discover host.plugins cfg.commands with
    | error f =>
      rw [called, call_undiscovered loaded found]
      refine agree_unprepared (offers.run_unprepared fits place ?_)
      rw [prepare, loaded, Except.ok_bind, found, Except.error_bind]
    | ok cs =>
      obtain ⟨gs, listed⟩ := exists_grammars listable found
      by_cases named : c.name ∈ Command.names cs
      · have there := Command.mem_discover found own named
        obtain ⟨⟨o, ran, tree, stdout, code⟩, answered⟩ :=
          carried_out own fits enough tells place posted path body loaded found listed there
        rw [ran, answered]
        exact agree_work own loaded tree stdout code
      · have prepared : prepare t (settingsPlace cwd dir) host.plugins = .ok (cfg, cs) := by
          rw [prepare, loaded, Except.ok_bind, found]
          rfl
        obtain ⟨o, ran, tree, code⟩ := offers.run_unknown fits place prepared listed named
        rw [called, ran, call_unknown loaded found reached named]
        refine .failed ?_ tree (fun _ => rfl) (status_sent ?_)
        · rw [succeeded, code]
          rfl
        · simp [Response.detail]

end

section

open CommandLine Service

/-- A command line and a request that say the same give a built-in command the same parameters, and the program and the
service make the same of it. -/
theorem front_ends_agree {c : Command} (own : c ∈ Command.builtin) {items : List Item}
    (fits : ∀ i ∈ items, i.Fits (grammar c)) (enough : (Item.texts items).length = c.arguments.length)
    {given : List (Value × Value)} (tells : Tool.Tells c items given) {dir : String} (place : IsText dir)
    {q : Request} (posted : q.method = "POST") (path : q.path = Route.toolLead ++ c.name)
    (body : parameters q.body = .ok given) {host : Host} (listable : ∀ p ∈ host.plugins, p.Listable) :
    (∀ cs gs, c ∈ cs → grammars cs = .ok gs → ∃ i values, Invocation.read gs (line dir c items) = .ok i ∧
      i.command = c.name ∧ Tool.validate c given = .ok values ∧ i.params c = params c items ∧
      Tool.params c values = params c items ∧ Tool.isDryRun values = i.truthy dryRunFlag.key) ∧
    ∀ (t : Tree) (cwd : Path),
      Agree t (settingsPlace cwd dir) cwd host c (params c items) (asked items dryRunFlag.key) (asked items "verbose")
        (run t cwd host (line dir c items)) (respond t (settingsPlace cwd dir) host q) :=
  ⟨fun _ _ there listed => exists_parameters own fits enough tells place listed there,
    agree own fits enough tells place posted path body listable⟩

def dryItems (name : String) (properties : Option String) : List Item :=
  .text name :: properties.toList.map
    (fun p => .flag (optionFlag Command.createData.propertyOption) "--properties" (some p)) ++
    [.flag dryRunFlag "--dry-run" none]

def dryParameters (name : String) (properties : Option String) : List (Value × Value) :=
  (.text "fullyQualifiedName", .text name) :: properties.toList.map (fun p => (.text "properties", .text p)) ++
    [(.text "dryRun", .bool true)]

def dryRequest (parameters : String) : Request where
  method := "POST"
  path := "/tools/dto:create"
  body := (Text.bytes ("\x7b\"parameters\":\x7b" ++ parameters ++ "\x7d\x7d")).data.toList

theorem fits_dryItems {name : String} {properties : Option String} (text : IsText name)
    (texts : ∀ p ∈ properties, IsText p) : ∀ i ∈ dryItems name properties, i.Fits (grammar Command.createData) := by
  have dry : dryRunFlag ∈ (grammar Command.createData).flags := by simp [grammar, flags]
  have option : optionFlag Command.createData.propertyOption ∈ (grammar Command.createData).flags := by
    simp [grammar, flags, Command.createData]
  rw [dryItems, List.cons_append, List.forall_mem_cons, List.forall_mem_append, List.forall_mem_map]
  refine ⟨.text text, fun p hp => ?_, List.forall_mem_singleton.2 (.switch dry (by decide) rfl)⟩
  exact .setting option (by decide) rfl (texts p (Option.mem_toList.1 hp))

theorem tells_dryParameters (name : String) (properties : Option String) :
    Tool.Tells Command.createData (dryItems name properties) (dryParameters name properties) := by
  have argument : Tool.camelCase "fully-qualified-name" = "fullyQualifiedName" := by decide +kernel
  have option : Tool.camelCase "properties" = "properties" := by decide +kernel
  have stored : optionKey "properties" = "option_properties" := by decide +kernel
  have flag (o : Choice) : (optionFlag o).key = optionKey o.name := rfl
  have keys : (Tool.slots Command.createData).values.map Tool.Slot.key =
    ["fullyQualifiedName", "properties", "dryRun"] := by decide +kernel
  constructor
  case arguments =>
    have only : Item.texts (dryItems name properties) = [name] := by cases properties <;> rfl
    rw [only]
    refine .cons ?_ .nil
    simp [argument, Value.lookupText, Value.lookup, dryParameters]
  case options =>
    refine List.forall_mem_singleton.2 (.inl ?_)
    cases properties <;>
      simp [Command.createData.propertyOption, option, stored, flag, Value.lookupText, Value.lookup, dryParameters,
        dryItems, Item.last?, Item.stored, dryRunFlag]
  case dryRun =>
    refine .inl ?_
    cases properties <;>
      simp [Value.lookupText, Value.lookup, Tool.dryRunKey, dryParameters, dryItems, Item.last?, Item.stored]
  case keys => cases properties <;> simp [keys, dryParameters]

theorem front_ends_agree_preview :
    parameters (dryRequest "\"fullyQualifiedName\":\"A\\\\B\",\"dryRun\":true").body = .ok (dryParameters "A\\B" none) ∧
      ∀ (t : Tree) (cwd : Path), Agree t (cwd.child "project") cwd {} Command.createData
        ⟨[("fully-qualified-name", .text "A\\B"), ("properties", .text "id:int")]⟩ true false
        (run t cwd {} (line "project" Command.createData (dryItems "A\\B" none)))
        (respond t (cwd.child "project") {} (dryRequest "\"fullyQualifiedName\":\"A\\\\B\",\"dryRun\":true")) := by
  have body : parameters (dryRequest "\"fullyQualifiedName\":\"A\\\\B\",\"dryRun\":true").body =
      .ok (dryParameters "A\\B" none) :=
    parameters_of_read (by decide +kernel) (by decide +kernel) (by decide +kernel) (by with_unfolding_all rfl)
  have own : Command.createData ∈ Command.builtin := by simp [Command.builtin]
  have listable : ∀ p ∈ ({} : Host).plugins, p.Listable := List.forall_mem_nil _
  have agree := front_ends_agree own (@fits_dryItems "A\\B" none (by decide) (by simp)) rfl
    (tells_dryParameters "A\\B" none) (show IsText "project" by decide) rfl (by decide) body listable
  exact ⟨body, agree.2⟩

def mappingText : String := "\x7bpsr4: \x7bA: a\x7d\x7d"

def mappingTree : Tree := ({} : Tree).put [".phpgen.yml"] (.file (Text.bytes mappingText))

def mappingConfig : Config where
  root := ⟨.root, []⟩
  mappings := ⟨⟨[("A", "a")]⟩, {}⟩

def mappingGraph : Yaml.Graph := ⟨#[.empty, .map .map [(2, 3)], .scalar .text "psr4", .map .map [(4, 5)],
  .scalar .text "A", .scalar .text "a"]⟩

def mappingDocument : Yaml.Document := ⟨#[.leaf .null, .map [(.text "psr4", 3)], .leaf (.text "psr4"),
  .map [(.text "A", 5)], .leaf (.text "A"), .leaf (.text "a")], 1⟩

theorem load_mappingTree : Config.load mappingTree ⟨.root, []⟩ = .ok mappingConfig := by
  have parsed : Yaml.Graph.ofTokens (Yaml.tokens mappingText.toList) = .ok (mappingGraph, 1) := by
    with_unfolding_all rfl
  have surveyed : Yaml.Document.ofGraph mappingGraph 1 = .ok mappingDocument := by cbv
  have read : Yaml.read mappingText = .ok mappingDocument := by
    rw [Yaml.read, parsed]
    exact surveyed
  have settings : Config.ofDocument mappingTree ⟨.root, []⟩ mappingDocument = .ok mappingConfig := by
    with_unfolding_all rfl
  exact (Config.load_settingsTree (by decide) (by decide +kernel) (by decide +kernel) read).trans settings

def unpaired : String := .ofList ("id:".toList ++ Text.held 0xDC80)

theorem front_ends_disagree_unpaired :
    let items := dryItems "A\\B" (some unpaired)
    let request := dryRequest "\"fullyQualifiedName\":\"A\\\\B\",\"properties\":\"id:\\udc80\",\"dryRun\":true"
    (∀ i ∈ items, i.Fits (grammar Command.createData)) ∧
    Tool.Tells Command.createData items (dryParameters "A\\B" (some unpaired)) ∧
    parameters request.body = .ok (dryParameters "A\\B" (some unpaired)) ∧
    succeeded (run mappingTree ⟨.root, []⟩ {} (line "." Command.createData items)) = true ∧
    (respond mappingTree ⟨.root, []⟩ {} request).2.status = 400 := by
  intro items request
  have fits : ∀ i ∈ items, i.Fits (grammar Command.createData) :=
    fits_dryItems (by decide) fun p hp => Option.mem_some.1 hp ▸ (by decide +kernel)
  have tells := tells_dryParameters "A\\B" (some unpaired)
  have body : parameters request.body = .ok (dryParameters "A\\B" (some unpaired)) :=
    parameters_of_read (by decide +kernel) (by decide +kernel) (by decide +kernel) (by with_unfolding_all rfl)
  refine ⟨fits, tells, body, ?_⟩
  have own : Command.createData ∈ Command.builtin := by simp [Command.builtin]
  have here : settingsPlace ⟨.root, []⟩ "." = ⟨.root, []⟩ := by decide +kernel
  have found : Command.discover ({} : Host).plugins mappingConfig.commands = .ok Command.builtin := rfl
  obtain ⟨gs, listed⟩ := exists_grammars (List.forall_mem_nil Plugin.Listable) found
  obtain ⟨⟨o, ran, -, -, code⟩, answered⟩ := carried_out own fits rfl tells (show IsText "." by decide) rfl
    (by decide) body (here ▸ load_mappingTree) found listed own
  have dry : asked items dryRunFlag.key = true := by decide +kernel
  have quiet : asked items "verbose" = false := by decide +kernel
  -- what is made holds a text that cannot be stored, but no line of what is printed does
  have shows : (Command.createData.carryOut mappingTree Engine.plain mappingConfig (params Command.createData items)
      true).2.toOption.any (fun d => !(d.1.map Path.text ++ d.2.flatMap texts).all (fun s => IsStorable s) &&
        (toldLines true false ⟨.root, []⟩ d.1 d.2).all fun s => IsStorable s) = true := by
    decide +kernel
  rw [here, dry] at answered
  rw [dry, quiet] at code
  obtain ⟨-, ⟨f, failed, -⟩ | ⟨paths, shown, done, said⟩⟩ := @work_cases mappingTree ⟨.root, []⟩ {} mappingConfig
    Command.createData (params Command.createData items) true false
  · rw [failed] at shows
    cases shows
  · rw [done, Except.toOption, Option.any_some, Bool.and_eq_true] at shows
    obtain ⟨unsaid, sayable⟩ := shows
    have kept : ¬ ∀ s ∈ paths.map Path.text ++ shown.flatMap texts, IsStorable s := by
      intro all
      rw [List.all_eq_true.2 fun s hs => decide_eq_true (all s hs)] at unsaid
      cases unsaid
    have faultless : (work mappingTree ⟨.root, []⟩ {} mappingConfig Command.createData (params Command.createData items)
        true false).fault = none := by
      refine (Prod.mk.inj (said.trans (Output.say_of_encode fun s hs => ?_))).2
      exact storable_eq_ok.2 (of_decide_eq_true (List.all_eq_true.1 sayable s hs))
    have sent := sentIf_report (reached_builtin _ own).storable true paths (Command.className_carryOut own done)
    rw [ran, answered, done]
    refine ⟨?_, sent.sent_answer.2 kept⟩
    rw [succeeded, code, faultless]
    rfl

end

end PhpScaffold
