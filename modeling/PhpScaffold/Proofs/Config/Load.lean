import PhpScaffold.CommandLine
import PhpScaffold.Proofs.Mapping.Override
import Mathlib

namespace PhpScaffold

/-- Whether nothing but the settings is to blame for what goes wrong. -/
def Orderly {α : Type} (x : Except Fault α) : Prop := x.FailsBy fun f => ∃ cause, f = .config cause

namespace Yaml

def Decided (s : String) : Prop := ∀ cause, read s ≠ .error (.fault cause)

end Yaml

namespace Json

def Decided (s : String) : Prop := ∀ cause, read s ≠ .error (.other cause)

end Json

namespace Tree

variable {t : Tree} {p : Path} {bytes : ByteArray}

theorem orderly_decode : Orderly (decode bytes) ↔ (Text.ofBytes? bytes).isSome := by
  unfold decode
  cases Text.ofBytes? bytes with
  | some s => simp [Orderly]
  | none =>
    dsimp only
    split <;> simp [Orderly]

theorem decode_eq_ok {s : String} : decode bytes = .ok s ↔ Text.ofBytes? bytes = some s := by
  unfold decode
  cases Text.ofBytes? bytes with
  | some s => simp
  | none =>
    dsimp only
    split <;> simp

theorem orderly_exists? : Orderly (t.exists? p) ↔ t.locate p ≠ .error .nameTooLong := by
  unfold exists? look
  cases t.locate p with
  | ok place => simp [Orderly]
  | error cause => cases cause <;> simp [Orderly]

theorem exists?_of_read (h : t.read p = .ok bytes) : t.exists? p = .ok true := by
  unfold read at h
  unfold exists? look
  cases located : t.locate p with
  | error cause => simp [located] at h
  | ok place =>
    simp only [located] at h
    cases there : t.get? place with
    | none => simp [there] at h
    | some e => simp [there]

end Tree

namespace Composer

/-- Whether a composer file can be looked for, and is a text if it is there. -/
def Legible (t : Tree) (p : Path) : Prop :=
  t.locate p ≠ .error .nameTooLong ∧ ∀ bytes, t.read p = .ok bytes → (Text.ofBytes? bytes).isSome

theorem orderly_read {t : Tree} {p : Path} (decided : ∀ s, t.readText p = .ok s → Json.Decided s) :
    Orderly (read t p) ↔ Legible t p := by
  rw [read, Orderly, Except.failsBy_bind]
  refine and_congr Tree.orderly_exists? ?_
  cases stored : t.read p with
  | error f =>
    -- no bytes are asked for, and that they cannot be had is the fault of the file itself
    refine iff_of_true (fun there _ => ?_) (by simp)
    cases there <;> simp
  | ok bytes =>
    simp only [Tree.exists?_of_read stored, Except.ok.injEq, forall_eq', Bool.not_true, Bool.false_eq_true, if_false,
      Except.pure_eq, Except.failsBy_bind]
    refine (and_iff_left fun s text => ?_).trans Tree.orderly_decode
    have one := decided s (by rw [Tree.readText, stored, Except.ok_bind, text])
    split <;> rename_i found
    · simp
    · exact absurd found (one _)
    · simp
    · simp

end Composer

namespace Config

variable {t : Tree} {root : Path} {es : List (Value × Value)}

def isBrief : Value → Bool
  | .int n => !(Value.int n).isLong
  | _ => true

def isBriefTable : Value → Bool
  | .dict es => es.all fun e => !e.1.isLong && !e.2.isLong
  | _ => true

def isBriefList : Value → Bool
  | .list vs => vs.all isBrief
  | _ => true

def isTable : Value → Bool
  | .null | .dict _ => true
  | _ => false

inductive Shows {α : Type} : Except Fault α → Bool → Prop
  | ok (a : α) : Shows (.ok a) true
  | long : Shows (.error .longNumber) false

namespace Shows

variable {α β : Type} {x : Except Fault α} {f : α → Except Fault β} {b c : Bool}

theorem orderly (h : Shows x b) : Orderly x ↔ b := by
  cases h <;> simp [Orderly]

theorem exists_iff (h : Shows x b) : (∃ a, x = .ok a) ↔ b := by
  cases h <;> simp

theorem bind (h : Shows x b) (next : ∀ a, Shows (f a) c) : Shows (x >>= f) (b && c) := by
  cases h with
  | ok a => exact next a
  | long => exact .long

theorem map (h : Shows x b) (g : α → β) : Shows (x >>= fun a => .ok (g a)) b := by
  simpa using h.bind fun a => .ok (g a)

theorem mapM {l : List α} {g : α → Bool} (each : ∀ a ∈ l, Shows (f a) (g a)) : Shows (l.mapM f) (l.all g) := by
  induction l with
  | nil => exact .ok []
  | cons a r ih =>
    obtain ⟨first, rest⟩ := List.forall_mem_cons.1 each
    rw [List.mapM_cons, List.all_cons]
    exact first.bind fun b => (ih rest).map (b :: ·)

end Shows

theorem shows_shown (v : Value) : Shows v.shown !v.isLong := by
  unfold Value.shown
  cases v.isLong
  · exact .ok _
  · exact .long

theorem shows_text? (v : Value) : Shows (text? v) (isBrief v) := by
  cases v with
  | int n => exact (shows_shown (.int n)).map some
  | _ => exact .ok _

theorem shows_commandName? (v : Value) : Shows (commandName? v) (isBrief v) := by
  unfold commandName?
  split
  · exact .ok _
  · exact shows_text? v

theorem shows_commandNames (v : Value) : Shows (commandNames v) (isBriefList v) := by
  cases v with
  | list vs => exact (Shows.mapM fun v _ => shows_commandName? v).map _
  | _ => exact .ok _

theorem shows_fallback (v : Value) : Shows (fallback v) (isBrief v) := (shows_text? v).map _

theorem shows_mappingEntry (e : Value × Value) : Shows (mappingEntry e) (!e.1.isLong && !e.2.isLong) := by
  refine (shows_shown e.1).bind fun lead => ?_
  split
  · rename_i null
    rw [null]
    exact .ok _
  · exact (shows_shown e.2).map _

theorem shows_mappingTable (key : String) {v : Value} (table : isTable v) :
    Shows (mappingTable key v) (isBriefTable v) := by
  cases v with
  | null => exact .ok _
  | dict es => exact (Shows.mapM fun e _ => shows_mappingEntry e).map _
  | _ => cases table

theorem mappingTable_eq_error (key : String) {v : Value} (other : isTable v = false) :
    mappingTable key v = .error (.config (.tableShape key)) ∧ isBriefTable v := by
  cases v with
  | null | dict => cases other
  | _ => exact ⟨rfl, rfl⟩

theorem orderly_mappingTable {key : String} {v : Value} : Orderly (mappingTable key v) ↔ isBriefTable v := by
  cases table : isTable v with
  | true => exact (shows_mappingTable key table).orderly
  | false =>
    obtain ⟨fails, brief⟩ := mappingTable_eq_error key table
    exact iff_of_true (by simp [fails, Orderly]) brief

theorem exists_mappingTable {key : String} {v : Value} (brief : isBriefTable v) :
    (∃ found, mappingTable key v = .ok found) ↔ isTable v := by
  cases table : isTable v with
  | true => exact (shows_mappingTable key table).exists_iff.trans (by simp [brief])
  | false => simp [mappingTable_eq_error key table]

def placed (root : Path) (v : Value) : Except Fault (Option Path) := do
  return ((← text? v).bind nonempty).map root.child

theorem shows_placed (root : Path) (v : Value) : Shows (placed root v) (isBrief v) := (shows_text? v).map _

theorem orderly_tables {α : Type} (make : Table String → Table String → String → Option Path → List String → α)
    (psr4 priority fallbackRoot templates commands : Value) :
    Orderly (do
      let explicit ← mappingTable "psr4" psr4
      let priority ← mappingTable "priority_psr4" priority
      let fallbackRoot ← fallback fallbackRoot
      let templatesDir ← placed root templates
      let commands ← commandNames commands
      return make explicit priority fallbackRoot templatesDir commands) ↔
    isBriefTable psr4 ∧ (isTable psr4 → isBriefTable priority ∧
      (isTable priority → isBrief fallbackRoot ∧ isBrief templates ∧ isBriefList commands)) := by
  -- behind the two tables only a long number stops what is left, so it is asked about as one
  have tail (explicit priority : Table String) : Shows (do
      let fallbackRoot ← fallback fallbackRoot
      let templatesDir ← placed root templates
      let commands ← commandNames commands
      return make explicit priority fallbackRoot templatesDir commands)
      (isBrief fallbackRoot && (isBrief templates && isBriefList commands)) :=
    (shows_fallback _).bind fun _ => (shows_placed root _).bind fun _ => (shows_commandNames _).map _
  have inner (explicit : Table String) := Except.failsBy_bind_of_iff (x := mappingTable "priority_psr4" priority)
    fun found _ => (tail explicit found).orderly
  refine (Except.failsBy_bind_of_iff fun explicit _ => inner explicit).trans ?_
  rw [← Orderly, ← Orderly, orderly_mappingTable, orderly_mappingTable, Bool.and_eq_true, Bool.and_eq_true]
  refine and_congr_right fun brief => ?_
  rw [exists_mappingTable brief]
  exact imp_congr_right fun _ => and_congr_right fun brief => by rw [exists_mappingTable brief]

def composerPlace (root : Path) (es : List (Value × Value)) : Option Path :=
  (placed root (setting "composer" es)).toOption.join

/-- Whether settings can be gone through in their order without meeting anything but faults of their own. -/
def Legible (t : Tree) (root : Path) (es : List (Value × Value)) : Prop :=
  isBrief (setting "composer" es) ∧ (∀ p, composerPlace root es = some p → Composer.Legible t p) ∧
    ((∀ p, composerPlace root es = some p → ∃ table, Composer.read t p = .ok table) →
      isBriefTable (setting "psr4" es) ∧ (isTable (setting "psr4" es) →
        isBriefTable (setting "priority_psr4" es) ∧ (isTable (setting "priority_psr4" es) →
          isBrief (setting "fallback_root" es) ∧ isBrief (setting "templates_dir" es) ∧
            isBriefList (setting "commands" es))))

theorem ofEntries_eq : ofEntries t root es = do
    let composerFile ← placed root (setting "composer" es)
    let composer ← composerFile.elim (.ok {}) (Composer.read t)
    let explicit ← mappingTable "psr4" (setting "psr4" es)
    let priority ← mappingTable "priority_psr4" (setting "priority_psr4" es)
    let fallbackRoot ← fallback (setting "fallback_root" es)
    let templatesDir ← placed root (setting "templates_dir" es)
    let commands ← commandNames (setting "commands" es)
    return {
      root, commands, fallbackRoot, templatesDir, composerFile
      mappings := ⟨normalTable composer explicit, priority⟩
      strictTypes := (truth? (setting "strict_types" es)).getD true } := by
  refine bind_congr fun file => ?_
  cases file <;> rfl

theorem orderly_ofEntries (decided : ∀ p, composerPlace root es = some p →
    ∀ s, t.readText p = .ok s → Json.Decided s) : Orderly (ofEntries t root es) ↔ Legible t root es := by
  have named := shows_placed root (setting "composer" es)
  rw [ofEntries_eq, Orderly, Except.failsBy_bind, Legible]
  refine (and_congr_left' named.orderly).trans (and_congr_right fun brief => ?_)
  -- from here on the composer file is known, if there is one
  obtain ⟨file, ends⟩ := named.exists_iff.2 brief
  have place : composerPlace root es = file := by
    rw [composerPlace, ends]
    rfl
  rw [place] at decided ⊢
  simp only [ends, Except.ok.injEq, forall_eq']
  refine (Except.failsBy_bind_of_iff fun composer _ => orderly_tables _ ..).trans ?_
  cases file with
  | none => simp
  | some p =>
    simp only [Option.elim_some, Option.some.injEq, forall_eq']
    exact and_congr_left' (Composer.orderly_read (decided p rfl))

def known? (d : Yaml.Document) : Option (List (Value × Value)) :=
  match d.content d.root with
  | .map es => some <| es.filterMap fun (k, n) =>
      if keys.any fun key => k.same (.text key) then some (k, d.value n) else none
  | _ => if (d.value d.root).truthy then none else some []

theorem ofDocument_eq (d : Yaml.Document) :
    ofDocument t root d = (known? d).elim (.error (.config (.notMapping fileName))) (ofEntries t root) := by
  unfold ofDocument known?
  cases d.content d.root with
  | map es => rfl
  | _ => dsimp only; split <;> rfl

def settings? (s : String) : Option (List (Value × Value)) :=
  if Text.allBlank s then some [] else (Yaml.read s).toOption.bind known?

theorem ofText_cases {file : Path} {s : String} (decided : Yaml.Decided s) :
    (∃ es, settings? s = some es ∧ ofText t file s = ofEntries t file.parent es) ∨
      settings? s = none ∧ ∃ cause, ofText t file s = .error (.config cause) := by
  unfold settings? ofText
  split
  · exact .inl ⟨[], rfl, rfl⟩
  · cases read : Yaml.read s with
    | error why =>
      cases why with
      | malformed => exact .inr ⟨rfl, _, rfl⟩
      | fault cause => exact absurd read (decided cause)
    | ok d =>
      -- the document decides by itself whether it spells settings, whatever the tree holds
      have made := @ofDocument_eq t file.parent d
      change (∃ es, known? d = some es ∧ ofDocument t file.parent d = _) ∨
        known? d = none ∧ ∃ cause, ofDocument t file.parent d = _
      cases spelled : known? d with
      | none => exact .inr ⟨rfl, _, by rw [made, spelled]; rfl⟩
      | some es => exact .inl ⟨es, rfl, by rw [made, spelled]; rfl⟩

def written? (bytes : ByteArray) : Option String :=
  (Text.ofBytes? bytes).map fun s => .ofList (Lint.unifyBreaks s.toList)

variable {p f : Path} {bytes : ByteArray}

theorem load_eq (place : file t p = .ok f) (stored : t.read f = .ok bytes) :
    load t p = Tree.decode bytes >>= fun s => ofText t f (.ofList (Lint.unifyBreaks s.toList)) := by
  rw [load, place, Except.ok_bind, Tree.exists?_of_read stored, Except.ok_bind, if_pos rfl, Tree.readText, stored,
    Except.ok_bind]

/-- Whether the readers of both documents decide what they are given. -/
structure ReadersDecide (t : Tree) (root : Path) (bytes : ByteArray) : Prop where
  yaml : ∀ s, written? bytes = some s → Yaml.Decided s
  json : ∀ s, written? bytes = some s → ∀ es, settings? s = some es → ∀ q, composerPlace root es = some q →
    ∀ content, t.readText q = .ok content → Json.Decided content

theorem orderly_load (place : file t p = .ok f) (stored : t.read f = .ok bytes)
    (decided : ReadersDecide t f.parent bytes) : Orderly (load t p) ↔
      ∃ s, written? bytes = some s ∧ ∀ es, settings? s = some es → Legible t f.parent es := by
  obtain ⟨yaml, json⟩ := decided
  rw [load_eq place stored, Orderly, Except.failsBy_bind]
  unfold written? at yaml json ⊢
  cases spelled : Text.ofBytes? bytes with
  | none =>
    refine iff_of_false (fun whole => ?_) (by simp)
    have text := Tree.orderly_decode.1 whole.1
    rw [spelled] at text
    cases text
  | some s =>
    simp only [spelled, Option.map_some, Option.some.injEq, exists_eq_left', forall_eq'] at yaml json ⊢
    simp only [Tree.decode_eq_ok.2 spelled, Except.failsBy_ok, Except.ok.injEq, forall_eq', true_and]
    obtain ⟨es, found, made⟩ | ⟨none, cause, fails⟩ := @ofText_cases t f _ yaml
    · simp only [found, Option.some.injEq, forall_eq']
      rw [made]
      exact orderly_ofEntries (json es found)
    · rw [fails]
      exact iff_of_true (Except.failsBy_error.2 ⟨cause, rfl⟩) (by simp [none])

open CommandLine in
/-- Whatever the settings file and the composer file hold, the settings are read or found to be wrong, and the program
says so, unless one of the files is no text, a number is too long to be shown or the path of the composer file is too
long. -/
theorem load_orderly_iff (place : file t p = .ok f) (stored : t.read f = .ok bytes)
    (decided : ReadersDecide t f.parent bytes) :
    (((∃ c, load t p = .ok c) ∨ ∃ cause, load t p = .error (.config cause)) ↔
      ∃ s, written? bytes = some s ∧ ∀ es, settings? s = some es → Legible t f.parent es) ∧
    ∀ cause, load t p = .error (.config cause) → ∀ cwd host words r, configGrammar.read words = .ok r →
      configPlace cwd r = p → run t cwd host words =
        .ok { tree := t, code := 1, stderr := "Configuration error: " ++ cause.message ++ "\n" } := by
  constructor
  · rw [← orderly_load place stored decided, Orderly, Except.failsBy_iff]
    exact or_congr_right ⟨fun ⟨cause, h⟩ => ⟨_, h, cause, rfl⟩, fun ⟨_, h, cause, kind⟩ => ⟨cause, kind ▸ h⟩⟩
  · rintro cause fails cwd host words r read rfl
    have stopped : prepare t (configPlace cwd r) host.plugins = .error (.config cause) := by
      rw [prepare, fails, Except.error_bind]
    simp only [run, read, stopped]
    rfl

section

def settingsTree (bytes : ByteArray) : Tree := ({} : Tree).put [fileName] (.file bytes)

theorem file_settingsTree (bytes : ByteArray) : file (settingsTree bytes) ⟨.root, []⟩ = .ok ⟨.root, [fileName]⟩ := by
  rfl

theorem read_settingsTree (bytes : ByteArray) : (settingsTree bytes).read ⟨.root, [fileName]⟩ = .ok bytes := by
  rfl

theorem written?_bytes {s : String} (plain : ∀ c ∈ s.toList, Text.isTaken c.toNat = false)
    (feeds : Lint.unifyBreaks s.toList = s.toList) : written? (Text.bytes s) = some s := by
  rw [written?, Text.ofBytes?_bytes plain, Option.map_some, feeds, String.ofList_toList]

theorem load_settingsTree {s : String} {d : Yaml.Document}
    (plain : ∀ c ∈ s.toList, Text.isTaken c.toNat = false) (feeds : Lint.unifyBreaks s.toList = s.toList)
    (filled : Text.allBlank s = false) (read : Yaml.read s = .ok d) :
    load (settingsTree (Text.bytes s)) ⟨.root, []⟩ = ofDocument (settingsTree (Text.bytes s)) ⟨.root, []⟩ d := by
  have decoded := Tree.decode_eq_ok.2 (Text.ofBytes?_bytes plain)
  rw [load_eq (file_settingsTree _) (read_settingsTree _), decoded, Except.ok_bind, feeds, String.ofList_toList, ofText,
    filled, read]
  rfl

def shapelessText : String := "psr4: src"

def shapelessGraph : Yaml.Graph :=
  ⟨#[.empty, .map .map [(2, 3)], .scalar .text "psr4", .scalar .text "src"]⟩

def shapelessDocument : Yaml.Document :=
  ⟨#[.leaf .null, .map [(.text "psr4", 3)], .leaf (.text "psr4"), .leaf (.text "src")], 1⟩

theorem read_shapelessText : Yaml.read shapelessText = .ok shapelessDocument := by
  have parsed : Yaml.Graph.ofTokens (Yaml.tokens shapelessText.toList) = .ok (shapelessGraph, 1) := by
    with_unfolding_all rfl
  have surveyed : Yaml.Document.ofGraph shapelessGraph 1 = .ok shapelessDocument := by cbv
  rw [Yaml.read, parsed]
  exact surveyed

theorem load_shapelessText :
    load (settingsTree (Text.bytes shapelessText)) ⟨.root, []⟩ = .error (.config (.tableShape "psr4")) := by
  rw [load_settingsTree (by decide) (by decide +kernel) (by decide +kernel) read_shapelessText]
  with_unfolding_all rfl

theorem read_list : CommandLine.configGrammar.read ["list"] = .ok ⟨⟨[("config", .null)]⟩, [], none, ["list"]⟩ := by
  with_unfolding_all rfl

theorem load_orderly_shapeless :
    (∃ s, written? (Text.bytes shapelessText) = some s ∧ ∀ es, settings? s = some es →
      Legible (settingsTree (Text.bytes shapelessText)) ⟨.root, []⟩ es) ∧
    ∀ host, CommandLine.run (settingsTree (Text.bytes shapelessText)) ⟨.root, []⟩ host ["list"] =
      .ok {
        tree := settingsTree (Text.bytes shapelessText)
        code := 1
        stderr := "Configuration error: 'psr4' must be a mapping of namespace prefix to directory\n" } := by
  have text : written? (Text.bytes shapelessText) = some shapelessText :=
    written?_bytes (by decide) (by decide +kernel)
  have own : settings? shapelessText = some [(.text "psr4", .text "src")] := by
    rw [settings?, read_shapelessText]
    with_unfolding_all rfl
  have alone : composerPlace ⟨.root, []⟩ [(.text "psr4", .text "src")] = none := by with_unfolding_all rfl
  have decided : ReadersDecide (settingsTree (Text.bytes shapelessText)) ⟨.root, []⟩ (Text.bytes shapelessText) := by
    constructor
    · rintro _ spelled cause
      cases text.symm.trans spelled
      rw [read_shapelessText]
      nofun
    · rintro _ spelled es known q named
      cases text.symm.trans spelled
      cases own.symm.trans known
      cases alone.symm.trans named
  obtain ⟨whole, answered⟩ := load_orderly_iff (file_settingsTree _) (read_settingsTree _) decided
  exact ⟨whole.1 (.inr ⟨_, load_shapelessText⟩), fun host =>
    answered _ load_shapelessText ⟨.root, []⟩ host ["list"] _ read_list rfl⟩

def strayBytes : ByteArray := ⟨#[0xFF]⟩

theorem load_orderly_undecodable : file (settingsTree strayBytes) ⟨.root, []⟩ = .ok ⟨.root, [fileName]⟩ ∧
    (settingsTree strayBytes).read ⟨.root, [fileName]⟩ = .ok strayBytes ∧
    ReadersDecide (settingsTree strayBytes) ⟨.root, []⟩ strayBytes ∧
    ∃ reason, load (settingsTree strayBytes) ⟨.root, []⟩ = .error (.undecodable reason) ∧
      ∀ host, CommandLine.run (settingsTree strayBytes) ⟨.root, []⟩ host ["list"] =
        .error (.undecodable reason) := by
  have none : Text.ofBytes? strayBytes = none := by decide +kernel
  have unwritten : written? strayBytes = .none := by
    rw [written?, none]
    rfl
  obtain ⟨reason, fails⟩ : ∃ reason, Tree.decode strayBytes = .error (.undecodable reason) := by
    unfold Tree.decode
    rw [none]
    dsimp only
    split <;> exact ⟨_, rfl⟩
  have escapes : load (settingsTree strayBytes) ⟨.root, []⟩ = .error (.undecodable reason) := by
    rw [load_eq (file_settingsTree _) (read_settingsTree _), fails]
    rfl
  refine ⟨rfl, rfl, ⟨by simp [unwritten], by simp [unwritten]⟩, reason, escapes, fun host => ?_⟩
  have stopped : CommandLine.prepare (settingsTree strayBytes) ⟨.root, []⟩ host.plugins =
      .error (.undecodable reason) := by
    rw [CommandLine.prepare, escapes, Except.error_bind]
  have here : CommandLine.configPlace ⟨.root, []⟩ ⟨⟨[("config", .null)]⟩, [], .none, ["list"]⟩ = ⟨.root, []⟩ := rfl
  simp only [CommandLine.run, read_list, here, stopped]
  rfl

end

end Config

end PhpScaffold
