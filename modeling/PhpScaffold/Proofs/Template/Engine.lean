import PhpScaffold.Template.Read
import PhpScaffold.Proofs.Files.Growth
import Mathlib.Data.Set.Insert

namespace PhpScaffold

namespace Tree

variable {t u : Tree} {dir : Path} {home x : List String} {name : String}

structure Leads (t : Tree) (dir : Path) (home : List String) : Prop where
  walk : t.walk dir.parts = .ok home
  there : t.get? home = some .directory

theorem Grown.leads (g : Grown t u) (h : t.Leads dir home) : u.Leads dir home :=
  ⟨g.walk h.walk, g.directory home h.there⟩

def below? (t : Tree) (dir : Path) (x : List String) : Option ByteArray :=
  match t.walk dir.parts with
  | .error _ => none
  | .ok home =>
    match t.get? home with
    | some .directory => t.file? (home ++ x)
    | _ => none

theorem below?_of_leads (h : t.Leads dir home) (x : List String) : t.below? dir x = t.file? (home ++ x) := by
  simp only [below?, h.walk, h.there]

theorem below?_eq_some {bytes : ByteArray} :
    t.below? dir x = some bytes ↔ ∃ home, t.Leads dir home ∧ t.file? (home ++ x) = some bytes := by
  constructor
  · intro h
    unfold below? at h
    split at h
    · cases h
    · split at h
      · exact ⟨_, ⟨‹_›, ‹_›⟩, h⟩
      · cases h
  · rintro ⟨home, leads, held⟩
    rw [below?_of_leads leads, held]

theorem below?_eq_none (h : ∀ home, ¬ t.Leads dir home) (x : List String) : t.below? dir x = none := by
  rw [Option.eq_none_iff_forall_ne_some]
  intro bytes held
  obtain ⟨home, leads, -⟩ := below?_eq_some.1 held
  exact h home leads

def Alike (files : Set (List String)) (dir : Path) (t u : Tree) : Prop := ∀ x ∈ files, u.below? dir x = t.below? dir x

theorem at?_concat {lead : Lead} {parts : List String} {bytes : ByteArray} (plain : name ≠ "..") :
    t.at? ⟨lead, parts ++ [name]⟩ = some (.file bytes) ↔
      ((⟨lead, parts ++ [name]⟩ : Path).nameable ∧ Text.nameSize (⟨lead, parts ++ [name]⟩ : Path).text ≤ longestPath ∧
        Text.nameSize name ≤ longest) ∧ t.below? ⟨lead, parts⟩ [name] = some bytes := by
  have held (place : List String) : t.file? place = some bytes ↔ t.get? place = some (.file bytes) := by
    unfold file?
    split <;> simp_all
  have found : t.at? ⟨lead, parts ++ [name]⟩ = some (.file bytes) ↔
      ∃ place, t.locate ⟨lead, parts ++ [name]⟩ = .ok place ∧ t.get? place = some (.file bytes) := by
    unfold at?
    cases t.locate ⟨lead, parts ++ [name]⟩ <;> simp
  rw [found, below?_eq_some]
  simp only [locate_eq_ok, walk_concat, Except.bind_eq_ok, enter_eq_ok, held, Path.push, if_neg plain]
  constructor
  · rintro ⟨_, ⟨named, fits, home, above, there, short, rfl⟩, file⟩
    exact ⟨⟨named, fits, short⟩, home, ⟨above, there⟩, file⟩
  · rintro ⟨⟨named, fits, short⟩, home, ⟨above, there⟩, file⟩
    exact ⟨_, ⟨named, fits, home, above, there, short, rfl⟩, file⟩

end Tree

namespace Template

variable {t u : Tree} {dir : Path} {name : String} {standard : Layout}

theorem load_eq : load t dir name standard =
    match t.at? (dir.child name) with
    | some (.file bytes) => do
      let ts ← (read (← Tree.decode bytes)).mapError Flaw.fault
      return fun parts => fill name parts ts
    | _ => .ok standard := by
  unfold load
  cases there : t.at? (dir.child name) with
  | none => simp [Tree.isFile, there]
  | some e =>
    cases e with
    | directory => simp [Tree.isFile, there]
    | file bytes =>
      have held : t.read (dir.child name) = .ok bytes := by
        unfold Tree.at? at there
        unfold Tree.read
        cases located : t.locate (dir.child name) with
        | error f => simp [located] at there
        | ok place =>
          simp only [located] at there
          simp [there]
      simp [Tree.isFile, there, Tree.readText, held]

theorem load_congr (single : Path.ofText name = ⟨.here, [name]⟩) (plain : name ≠ "..")
    (h : u.below? dir [name] = t.below? dir [name]) : load u dir name standard = load t dir name standard := by
  have place : dir.child name = ⟨dir.lead, dir.parts ++ [name]⟩ := by
    rw [Path.child, single]
    rfl
  have same (bytes : ByteArray) :
      u.at? (dir.child name) = some (.file bytes) ↔ t.at? (dir.child name) = some (.file bytes) := by
    rw [place, Tree.at?_concat plain, Tree.at?_concat plain, h]
  rw [load_eq, load_eq]
  split
  · rename_i bytes there
    rw [(same bytes).1 there]
  · rename_i other
    split
    · rename_i bytes there
      exact absurd ((same bytes).2 there) (other bytes)
    · rfl

def decodeKnowing (s : String) (bytes : ByteArray) : Except Fault String :=
  if bytes.data = (Text.bytes s).data then .ok s else Tree.decode bytes

theorem decodeKnowing_eq {s : String} (plain : ∀ c ∈ s.toList, Text.isTaken c.toNat = false) :
    decodeKnowing s = Tree.decode := by
  funext bytes
  unfold decodeKnowing
  split
  · rename_i known
    simp only [ByteArray.ext known, Tree.decode, Text.ofBytes?_bytes plain, Except.pure_eq]
  · rfl

def loadKnowing (s : String) (t : Tree) (dir : Path) (name : String) (standard : Layout) : Except Fault Layout :=
  match t.at? (dir.child name) with
  | some (.file bytes) => do
    let ts ← (read (← decodeKnowing s bytes)).mapError Flaw.fault
    return fun parts => fill name parts ts
  | _ => .ok standard

theorem load_eq_loadKnowing {s : String} (plain : ∀ c ∈ s.toList, Text.isTaken c.toNat = false) :
    load = loadKnowing s := by
  funext t dir name standard
  rw [load_eq, ← decodeKnowing_eq plain]
  rfl

end Template

namespace Engine

def knowing (s : String) : Engine := fun dir before t =>
  { element := Template.loadKnowing s (whenFirst hasElement before t) dir Template.elementName Template.elementLayout
    file := Template.loadKnowing s (whenFirst (fun _ => true) before t) dir Template.fileName Template.fileLayout }

theorem plain_eq_knowing {s : String} (h : ∀ c ∈ s.toList, Text.isTaken c.toNat = false) : plain = knowing s := by
  unfold plain knowing
  rw [Template.load_eq_loadKnowing h]

/-- Whether the layouts come of certain files below the directory, and of what was printed before.  Where these files
were all along as they are, the layouts are the same. -/
def ComesOf (engine : Engine) (files : Set (List String)) : Prop :=
  ∀ dir before before' t t', before.map Prod.snd = before'.map Prod.snd →
    (∀ u ∈ before.map Prod.fst, Tree.Alike files dir t u) → (∀ u ∈ before'.map Prod.fst, Tree.Alike files dir t u) →
    Tree.Alike files dir t t' → engine dir before t = engine dir before' t'

theorem whenFirst_mem (needs : SourceFile → Bool) (before : List (Tree × SourceFile)) (t : Tree) :
    whenFirst needs before t ∈ t :: before.map Prod.fst := by
  unfold whenFirst
  cases found : before.find? fun e => needs e.2 with
  | none => exact List.mem_cons_self
  | some e => exact List.mem_cons_of_mem t (List.mem_map_of_mem (List.mem_of_find?_eq_some found))

theorem comesOf_plain : plain.ComesOf {[Template.elementName], [Template.fileName]} := by
  intro dir before before' t t' _ seen seen' now
  have all : ∀ u ∈ t :: before.map Prod.fst, Tree.Alike {[Template.elementName], [Template.fileName]} dir t u :=
    List.forall_mem_cons.2 ⟨fun _ _ => rfl, seen⟩
  have all' : ∀ u ∈ t' :: before'.map Prod.fst, Tree.Alike {[Template.elementName], [Template.fileName]} dir t u :=
    List.forall_mem_cons.2 ⟨now, seen'⟩
  have element : Path.ofText Template.elementName = ⟨.here, [Template.elementName]⟩ := by decide +kernel
  have file : Path.ofText Template.fileName = ⟨.here, [Template.fileName]⟩ := by decide +kernel
  refine congrArg₂ Layouts.mk ?_ ?_
  · rw [Template.load_congr element (by decide) (all _ (whenFirst_mem hasElement before t) _ (.inl rfl)),
      Template.load_congr element (by decide) (all' _ (whenFirst_mem hasElement before' t') _ (.inl rfl))]
  · rw [Template.load_congr file (by decide) (all _ (whenFirst_mem _ before t) _ (.inr rfl)),
      Template.load_congr file (by decide) (all' _ (whenFirst_mem _ before' t') _ (.inr rfl))]

end Engine

end PhpScaffold
