import PhpScaffold.Files.Path
import PhpScaffold.Files.Tree
import PhpScaffold.Proofs.Except
import PhpScaffold.Proofs.Text
import Mathlib.Data.List.Induction
import Mathlib.Data.List.Infix
import Mathlib.Logic.Function.Basic

namespace PhpScaffold.Path

def nameable (p : Path) : Bool := (Text.firstUnnameable? p.text).isNone && !p.hasNull

theorem exists_text_append (lead : Lead) {front parts : List String} (h : front <+: parts) :
    (⟨lead, front⟩ : Path).text = "." ∨
      ∃ r, (⟨lead, parts⟩ : Path).text = (⟨lead, front⟩ : Path).text ++ r := by
  obtain ⟨rest, rfl⟩ := h
  by_cases bare : (!(⟨lead, front⟩ : Path).absolute && front.isEmpty) = true
  · left
    simp only [text, bare, if_true]
  · right
    have filled : (!(⟨lead, front ++ rest⟩ : Path).absolute && (front ++ rest).isEmpty) = false := by
      cases front <;> simp_all [absolute]
    simp only [text, bare, filled, Bool.false_eq_true, if_false]
    cases rest with
    | nil => exact ⟨"", by simp⟩
    | cons t rest =>
      cases front with
      | nil => exact ⟨"/".intercalate (t :: rest), by simp⟩
      | cons s front =>
        refine ⟨"/" ++ "/".intercalate (t :: rest), ?_⟩
        rw [String.intercalate_append_of_ne_nil (by simp) (by simp)]
        simp [String.append_assoc]

theorem nameable_of_prefix {lead : Lead} {front parts : List String} (h : front <+: parts)
    (named : (⟨lead, parts⟩ : Path).nameable) : (⟨lead, front⟩ : Path).nameable := by
  simp only [nameable, Bool.and_eq_true, Bool.not_eq_true', Option.isNone_iff_eq_none, hasNull,
    List.any_eq_false, Text.firstUnnameable?, Text.halves?_eq_none] at named ⊢
  refine ⟨fun n hn half => ?_, fun part hp => named.2 part (h.subset hp)⟩
  obtain bare | ⟨r, whole⟩ := exists_text_append lead h
  · rw [bare] at hn
    exact absurd half (by simp_all [Text.codes, Text.code, Text.isTaken, Text.isHalf, Text.isHigh, Text.isLow])
  · apply named.1 n _ half
    rw [whole, String.toList_append]
    exact Text.mem_codes_append hn half _

end PhpScaffold.Path

namespace PhpScaffold

namespace SystemFault

/-- Whether the system refused, and not the path to be given to it. -/
def refusal : SystemFault → Bool
  | nullByte | unpaired => false
  | _ => true

end SystemFault

namespace Tree

variable {t u : Tree} {p : Path} {place : List String}

def walk (t : Tree) (parts : List String) : Except SystemFault (List String) := parts.foldlM t.enter []

def passed (t : Tree) (parts : List String) : List (List String) :=
  parts.inits.filterMap fun front => (t.walk front).toOption

def file? (t : Tree) (place : List String) : Option ByteArray :=
  match t.get? place with
  | some (.file bytes) => some bytes
  | _ => none

/-- What was a directory is one, and what was a file is one. -/
structure Grown (t u : Tree) : Prop where
  directory : ∀ place, t.get? place = some .directory → u.get? place = some .directory
  file : ∀ place, (t.file? place).isSome → (u.file? place).isSome

theorem grown_of_get?_eq (h : t.get? = u.get?) : Grown t u := by
  refine ⟨fun place dir => h ▸ dir, fun place there => ?_⟩
  rwa [file?, ← h]

theorem Grown.refl (t : Tree) : Grown t t := grown_of_get?_eq rfl

theorem Grown.trans {v : Tree} (h : Grown t u) (g : Grown u v) : Grown t v :=
  ⟨fun place dir => g.directory place (h.directory place dir), fun place there => g.file place (h.file place there)⟩

theorem get?_put (t : Tree) (e : Entry) {place : List String} (h : place ≠ []) (x : List String) :
    (t.put place e).get? x = if x = place then some e else t.get? x := by
  obtain ⟨es⟩ := t
  by_cases top : x = []
  · rw [top, if_neg (Ne.symm h)]
    rfl
  · simp only [get?, put, List.isEmpty_iff, top, if_false]
    induction es with
    | nil => grind [putEntry]
    | cons e r ih => grind [putEntry]

theorem ne_nil_of_get? (h : t.get? place ≠ some .directory) : place ≠ [] := by
  rintro rfl
  exact h rfl

theorem grown_put {e : Entry} (h : t.get? place ≠ some .directory)
    (kept : t.get? place = none ∨ ∃ bytes, e = .file bytes) : Grown t (t.put place e) := by
  have put := get?_put t e (ne_nil_of_get? h)
  constructor
  · intro x dir
    rw [put, if_neg, dir]
    rintro rfl
    exact h dir
  · intro x there
    rw [file?, put]
    by_cases same : x = place
    · obtain new | ⟨bytes, rfl⟩ := kept
      · rw [same, file?, new] at there
        cases there
      · simp [same]
    · rwa [if_neg same]

theorem file?_put (bytes : ByteArray) (h : t.get? place ≠ some .directory) :
    (t.put place (.file bytes)).file? = Function.update t.file? place (some bytes) := by
  funext x
  rw [file?, get?_put t _ (ne_nil_of_get? h)]
  by_cases same : x = place
  · simp [same]
  · rw [if_neg same, Function.update_of_ne same, file?]

theorem walk_append (t : Tree) (parts rest : List String) :
    t.walk (parts ++ rest) = t.walk parts >>= rest.foldlM t.enter :=
  List.foldlM_append

theorem walk_concat (t : Tree) (parts : List String) (name : String) :
    t.walk (parts ++ [name]) = t.walk parts >>= fun x => t.enter x name := by
  rw [walk_append]
  apply congrArg
  funext x
  rw [List.foldlM_cons]
  exact bind_pure _

theorem enter_eq_ok {name : String} {x : List String} :
    t.enter place name = .ok x ↔
      t.get? place = some .directory ∧ Text.nameSize name ≤ longest ∧ x = Path.push place name := by
  rw [enter]
  split
  · rename_i h
    simp [h]
  · rename_i h
    simp [h]
  · rename_i h
    split
    · rename_i long
      simp [h, Nat.not_le.2 long]
    · rename_i fits
      simp [h, Nat.not_lt.1 fits, eq_comm]

theorem Grown.walk (g : Grown t u) {parts : List String} (h : t.walk parts = .ok place) :
    u.walk parts = .ok place := by
  induction parts using List.reverseRecOn generalizing place with
  | nil => exact h
  | append_singleton parts name ih =>
    rw [walk_concat, Except.bind_eq_ok] at h ⊢
    obtain ⟨x, hx, entered⟩ := h
    obtain ⟨there, rest⟩ := enter_eq_ok.1 entered
    exact ⟨x, ih hx, enter_eq_ok.2 ⟨g.directory x there, rest⟩⟩

theorem get?_of_mem_passed {parts : List String} (h : t.walk parts = .ok place) {x : List String}
    (hx : x ∈ t.passed parts) : x = place ∨ t.get? x = some .directory := by
  obtain ⟨front, within, passes⟩ := List.mem_filterMap.1 hx
  obtain ⟨rest, rfl⟩ := (List.mem_inits front parts).1 within
  cases there : t.walk front with
  | error f => simp [there, Except.toOption] at passes
  | ok y =>
    obtain rfl : y = x := by simpa [there, Except.toOption] using passes
    cases rest with
    | nil =>
      left
      rw [List.append_nil, there, Except.ok.injEq] at h
      exact h
    | cons name rest =>
      right
      rw [walk_append] at h
      obtain ⟨z, same, onward⟩ := Except.bind_eq_ok.1 h
      rw [there, Except.ok.injEq] at same
      obtain ⟨_, entered, _⟩ := Except.bind_eq_ok.1 onward
      exact same ▸ (enter_eq_ok.1 entered).1

theorem Grown.passed (g : Grown t u) {parts : List String} (h : t.walk parts = .ok place) :
    u.passed parts = t.passed parts := by
  apply List.filterMap_congr
  intro front within
  obtain ⟨rest, rfl⟩ := (List.mem_inits front parts).1 within
  rw [walk_append] at h
  obtain ⟨x, there, -⟩ := Except.bind_eq_ok.1 h
  rw [there, g.walk there]

theorem mem_passed_self {parts : List String} (h : t.walk parts = .ok place) : place ∈ t.passed parts :=
  List.mem_filterMap.2 ⟨parts, (List.mem_inits parts parts).2 (List.prefix_refl _), by rw [h]; rfl⟩

theorem passed_subset_append (t : Tree) (parts rest : List String) : t.passed parts ⊆ t.passed (parts ++ rest) := by
  intro x hx
  obtain ⟨front, within, there⟩ := List.mem_filterMap.1 hx
  have further : front <+: parts ++ rest := ((List.mem_inits front parts).1 within).trans (List.prefix_append _ _)
  exact List.mem_filterMap.2 ⟨front, (List.mem_inits _ _).2 further, there⟩

theorem locate_eq_ok :
    t.locate p = .ok place ↔ p.nameable ∧ Text.nameSize p.text ≤ longestPath ∧ t.walk p.parts = .ok place := by
  rw [locate, Path.nameable]
  split
  · rename_i h
    simp [Option.isSome_iff_ne_none.1 h]
  · rename_i h
    split
    · rename_i null
      simp [null]
    · rename_i free
      split
      · rename_i long
        simp [Nat.not_le.2 long]
      · rename_i fits
        simp [free, Nat.not_lt.1 fits, walk, Option.not_isSome_iff_eq_none.1 h]

theorem refusal_of_enter {name : String} {cause : SystemFault} (h : t.enter place name = .error cause) :
    cause.refusal := by
  unfold enter at h
  split at h
  · cases h
    rfl
  · cases h
    rfl
  · split at h <;> cases h
    rfl

theorem refusal_of_walk {parts : List String} {cause : SystemFault} (h : t.walk parts = .error cause) :
    cause.refusal := by
  induction parts using List.reverseRecOn with
  | nil => cases h
  | append_singleton parts name ih =>
    rw [walk_concat, Except.bind_eq_error] at h
    obtain h | ⟨x, -, entered⟩ := h
    · exact ih h
    · exact refusal_of_enter entered

theorem refusal_of_locate {cause : SystemFault} (h : t.locate p = .error cause) : cause.refusal = p.nameable := by
  rw [locate] at h
  split at h
  · rename_i halves
    cases h
    simp [Path.nameable, SystemFault.refusal, Option.isSome_iff_ne_none.1 halves]
  · rename_i whole
    have whole := Option.not_isSome_iff_eq_none.1 whole
    split at h
    · rename_i null
      cases h
      simp [Path.nameable, SystemFault.refusal, null]
    · rename_i free
      have named : p.nameable = true := by simp [Path.nameable, whole, free]
      rw [named]
      split at h
      · cases h
        rfl
      · exact refusal_of_walk h

theorem Grown.locate (g : Grown t u) (h : t.locate p = .ok place) : u.locate p = .ok place := by
  obtain ⟨named, fits, there⟩ := locate_eq_ok.1 h
  exact locate_eq_ok.2 ⟨named, fits, g.walk there⟩

theorem isDirectory_iff : t.isDirectory p ↔ ∃ place, t.locate p = .ok place ∧ t.get? place = some .directory := by
  unfold isDirectory at?
  cases t.locate p with
  | error f => simp
  | ok place =>
    simp only [Except.ok.injEq, exists_eq_left']
    split <;> simp_all

theorem Grown.isDirectory (g : Grown t u) (h : t.isDirectory p) : u.isDirectory p := by
  obtain ⟨place, there, dir⟩ := isDirectory_iff.1 h
  exact isDirectory_iff.2 ⟨place, g.locate there, g.directory place dir⟩

theorem enter_congr {name : String} (h : t.get? place = u.get? place) : t.enter place name = u.enter place name := by
  rw [enter, enter, h]

theorem Grown.locate_eq (g : Grown t u) (h : t.isDirectory p.parent) : u.locate p = t.locate p := by
  obtain ⟨home, there, dir⟩ := isDirectory_iff.1 h
  obtain ⟨-, -, above⟩ := locate_eq_ok.1 there
  have same : u.walk p.parts = t.walk p.parts := by
    obtain top | ⟨front, last, parts⟩ := List.eq_nil_or_concat p.parts
    · rw [top]
      rfl
    · rw [List.concat_eq_append] at parts
      rw [Path.parent, parts, List.dropLast_concat] at above
      rw [parts, walk_concat, walk_concat, above, g.walk above, Except.ok_bind, Except.ok_bind]
      exact enter_congr ((g.directory home dir).trans dir.symm)
  simp only [Tree.walk] at same
  rw [Tree.locate, Tree.locate, same]

structure Made (t u : Tree) (p : Path) : Prop where
  grown : Grown t u
  there : u.isDirectory p
  frame : ∀ x, x ∉ u.passed p.parts → u.get? x = t.get? x

theorem Made.get? (h : Made t u p) (x : List String) :
    u.get? x = if x ∈ u.passed p.parts then some .directory else t.get? x := by
  split
  · rename_i passed
    obtain ⟨place, there, dir⟩ := isDirectory_iff.1 h.there
    obtain ⟨-, -, walked⟩ := locate_eq_ok.1 there
    obtain rfl | passes := get?_of_mem_passed walked passed
    · exact dir
    · exact passes
  · rename_i passed
    exact h.frame x passed

theorem Made.file?_eq (h : Made t u p) : u.file? = t.file? := by
  funext x
  by_cases passed : x ∈ u.passed p.parts
  · have lost : u.file? x = none := by rw [file?, h.get?, if_pos passed]
    cases there : t.file? x with
    | none => exact lost
    | some bytes =>
      have kept := h.grown.file x (by simp [there])
      rw [lost] at kept
      cases kept
  · rw [file?, file?, h.frame x passed]

theorem made_of_isDirectory (h : t.isDirectory p) : Made t t p :=
  ⟨Grown.refl t, h, fun _ _ => rfl⟩

theorem makeDirectory_eq_ok :
    t.makeDirectory p = .ok u ↔
      ∃ place, t.locate p = .ok place ∧ t.get? place = none ∧ u = t.put place .directory := by
  rw [makeDirectory, Except.bind_eq_ok]
  apply exists_congr
  intro place
  apply and_congr_right
  intro _
  cases t.get? place with
  | none => simp [eq_comm]
  | some e => simp

theorem refusal_of_makeDirectory {cause : SystemFault} (h : t.makeDirectory p = .error cause) :
    cause.refusal = p.nameable := by
  rw [makeDirectory, Except.bind_eq_error] at h
  obtain lost | ⟨place, there, taken⟩ := h
  · exact refusal_of_locate lost
  · rw [(locate_eq_ok.1 there).1]
    split at taken <;> cases taken
    rfl

theorem made_of_makeDirectory (h : t.makeDirectory p = .ok u) : Made t u p := by
  obtain ⟨place, there, new, rfl⟩ := makeDirectory_eq_ok.1 h
  have free : t.get? place ≠ some .directory := by simp [new]
  have grown : Grown t (t.put place .directory) := grown_put free (.inl new)
  have made : (t.put place .directory).get? place = some .directory := by
    rw [get?_put t _ (ne_nil_of_get? free), if_pos rfl]
  refine ⟨grown, isDirectory_iff.2 ⟨place, grown.locate there, made⟩, fun x hx => ?_⟩
  rw [get?_put t _ (ne_nil_of_get? free), if_neg]
  rintro rfl
  exact hx (mem_passed_self (grown.walk (locate_eq_ok.1 there).2.2))

theorem made_of_ensureDirectory (h : t.ensureDirectory p = .ok u) : Made t u p := by
  unfold ensureDirectory at h
  split at h
  · rename_i v made
    cases h
    exact made_of_makeDirectory made
  · split at h
    · rename_i there
      cases h
      exact made_of_isDirectory there
    · cases h

theorem makeAll_cons (lead : Lead) (t : Tree) (part : String) (rest : List String) :
    makeAll lead t (part :: rest) = match t.makeDirectory ⟨lead, (part :: rest).reverse⟩ with
      | .error .missing => makeAll lead t rest >>= (ensureDirectory · ⟨lead, (part :: rest).reverse⟩)
      | _ => t.ensureDirectory ⟨lead, (part :: rest).reverse⟩ := rfl

theorem made_of_makeAll {lead : Lead} {rest : List String} (h : makeAll lead t rest = .ok u) :
    Made t u ⟨lead, rest.reverse⟩ := by
  induction rest generalizing u with
  | nil => exact made_of_ensureDirectory h
  | cons part rest ih =>
    rw [makeAll_cons] at h
    split at h
    · obtain ⟨v, above, last⟩ := Except.bind_eq_ok.1 h
      have above := ih above
      have last := made_of_ensureDirectory last
      refine ⟨above.grown.trans last.grown, last.there, fun x hx => ?_⟩
      rw [last.frame x hx, above.frame x]
      intro passed
      apply hx
      obtain ⟨place, there, -⟩ := isDirectory_iff.1 above.there
      rw [← last.grown.passed (locate_eq_ok.1 there).2.2] at passed
      rw [List.reverse_cons]
      exact passed_subset_append u rest.reverse [part] passed
    · exact made_of_ensureDirectory h

theorem made_of_makeDirectories (h : t.makeDirectories p = .ok u) : Made t u p := by
  have made := made_of_makeAll h
  rwa [List.reverse_reverse] at made

theorem refusal_of_ensureDirectory {f : Fault} (h : t.ensureDirectory p = .error f) :
    ∃ cause, f = .system cause p.text ∧ cause.refusal = p.nameable := by
  unfold ensureDirectory at h
  split at h
  · cases h
  · rename_i cause refused
    split at h
    · cases h
    · cases h
      exact ⟨cause, rfl, refusal_of_makeDirectory refused⟩

theorem refusal_of_makeAll {lead : Lead} {rest : List String} {f : Fault} (h : makeAll lead t rest = .error f) :
    ∃ cause path, f = .system cause path ∧ cause.refusal = (⟨lead, rest.reverse⟩ : Path).nameable := by
  induction rest with
  | nil =>
    obtain ⟨cause, rfl, refused⟩ := refusal_of_ensureDirectory h
    exact ⟨cause, _, rfl, refused⟩
  | cons part rest ih =>
    rw [makeAll_cons] at h
    split at h
    · rename_i missing
      have named := refusal_of_makeDirectory missing
      rw [← named]
      obtain above | ⟨v, -, last⟩ := Except.bind_eq_error.1 h
      · obtain ⟨cause, path, rfl, refused⟩ := ih above
        rw [List.reverse_cons] at named
        refine ⟨cause, path, rfl, refused.trans ?_⟩
        exact Path.nameable_of_prefix (List.prefix_append _ [part]) named.symm
      · obtain ⟨cause, rfl, refused⟩ := refusal_of_ensureDirectory last
        exact ⟨cause, _, rfl, refused.trans named.symm⟩
    · obtain ⟨cause, rfl, refused⟩ := refusal_of_ensureDirectory h
      exact ⟨cause, _, rfl, refused⟩

theorem refusal_of_makeDirectories {f : Fault} (h : t.makeDirectories p = .error f) :
    ∃ cause path, f = .system cause path ∧ cause.refusal = p.nameable := by
  have refused := refusal_of_makeAll h
  rwa [List.reverse_reverse] at refused

theorem write_eq_ok {bytes : ByteArray} :
    t.write p bytes = .ok u ↔
      ∃ place, t.locate p = .ok place ∧ t.get? place ≠ some .directory ∧ u = t.put place (.file bytes) := by
  rw [write]
  cases there : t.locate p with
  | error cause => simp
  | ok place =>
    simp only [Except.ok.injEq, exists_eq_left']
    split
    · rename_i dir
      simp [dir]
    · rename_i free
      simp only [Except.pure_eq, Except.ok.injEq, @eq_comm _ u]
      exact ⟨fun h => ⟨free, h⟩, fun h => h.2⟩

theorem refusal_of_write {bytes : ByteArray} {f : Fault} (h : t.write p bytes = .error f) :
    ∃ cause, f = .system cause p.text ∧ cause.refusal = p.nameable := by
  rw [write] at h
  cases there : t.locate p with
  | error cause =>
    simp only [there] at h
    cases h
    exact ⟨cause, rfl, refusal_of_locate there⟩
  | ok place =>
    simp only [there] at h
    rw [(locate_eq_ok.1 there).1]
    split at h <;> cases h
    exact ⟨.isDirectory, rfl, rfl⟩

end Tree

end PhpScaffold
