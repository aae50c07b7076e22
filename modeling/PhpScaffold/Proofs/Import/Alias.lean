import PhpScaffold.Proofs.Blueprint.Assembly
import Mathlib.Data.List.Induction
import Mathlib.Data.List.Nodup

namespace PhpScaffold

namespace Table

variable {α : Type u}

def Throughout (P : List (String × α) → String × α → Prop) (es : List (String × α)) : Prop :=
  ∀ before e after, es = before ++ e :: after → P before e

variable {P Q R : List (String × α) → String × α → Prop}

theorem throughout_nil : Throughout P [] := by
  intro before e after h
  simp at h

theorem throughout_concat {es : List (String × α)} {e : String × α} :
    Throughout P (es ++ [e]) ↔ Throughout P es ∧ P es e := by
  constructor
  · intro h
    refine ⟨fun before f after hes => h before f (after ++ [e]) (by simp [hes]), h es e [] rfl⟩
  · rintro ⟨inner, last⟩ before f after h
    obtain rfl | ⟨front, g, rfl⟩ := List.eq_nil_or_concat after
    · obtain ⟨rfl, hf⟩ := List.append_inj' h rfl
      cases hf
      exact last
    · have split : es ++ [e] = (before ++ f :: front) ++ [g] := by simpa using h
      exact inner before f front (List.append_inj' split rfl).1

theorem throughout_congr {es : List (String × α)} (hp : Throughout P es)
    (h : ∀ before e, P before e → (Q before e ↔ R before e)) : Throughout Q es ↔ Throughout R es := by
  constructor
  · intro hq before e after hes
    exact (h before e (hp before e after hes)).1 (hq before e after hes)
  · intro hr before e after hes
    exact (h before e (hp before e after hes)).2 (hr before e after hes)

theorem nodup_cons_iff_throughout (a : α) (es : List (String × α)) :
    (a :: es.map Prod.snd).Nodup ↔ Throughout (fun before e => e.2 ∉ a :: before.map Prod.snd) es := by
  induction es using List.reverseRecOn with
  | nil => simp [throughout_nil]
  | append_singleton es e ih =>
    rw [throughout_concat, ← ih, List.map_append, List.map_singleton, ← List.cons_append,
      ← List.concat_eq_append, List.nodup_concat, and_comm]

end Table

namespace Namespace

/-- A run of last segments put together. -/
def Spelling (name x : String) : Prop := ∃ tail, tail ≠ [] ∧ tail <:+ Name.segments name ∧ x = String.join tail

theorem eq_or_suffix {front tail t : List String} {s : String} (longer : tail <:+ t)
    (within : t <:+ front ++ s :: tail) : t = tail ∨ s :: tail <:+ t := by
  obtain shorter | beyond := List.suffix_or_suffix_of_suffix within (List.suffix_append front (s :: tail))
  · obtain rfl | inner := List.suffix_cons_iff.1 shorter
    · exact .inr (List.suffix_refl _)
    · exact .inl (List.IsSuffix.eq_of_length inner (Nat.le_antisymm inner.length_le longer.length_le))
  · exact .inr beyond

theorem exists_freeAlias_eq (taken before : List String) {tail : List String} (h : tail ≠ []) :
    ∃ t, t ≠ [] ∧ t <:+ before.reverse ++ tail ∧ freeAlias taken before (String.join tail) = String.join t := by
  -- the tail varies, as it takes in one segment more with each alias that is not free
  induction before generalizing tail with
  | nil => exact ⟨tail, h, List.suffix_refl _, rfl⟩
  | cons s r ih =>
    rw [List.reverse_cons, List.append_assoc, List.singleton_append, freeAlias]
    split
    · rw [← String.join_cons]
      exact ih (by simp)
    · exact ⟨tail, h, (List.suffix_cons s tail).trans (List.suffix_append _ _), rfl⟩

theorem mem_of_freeAlias_mem {taken before tail t : List String}
    (h : freeAlias taken before (String.join tail) ∈ taken) (longer : tail <:+ t)
    (within : t <:+ before.reverse ++ tail) : String.join t ∈ taken := by
  induction before generalizing tail with
  | nil =>
    have same : t = tail := List.IsSuffix.eq_of_length within (Nat.le_antisymm within.length_le longer.length_le)
    rwa [same]
  | cons s r ih =>
    rw [List.reverse_cons, List.append_assoc, List.singleton_append] at within
    rw [freeAlias] at h
    split at h
    · rename_i now
      obtain rfl | further := eq_or_suffix longer within
      · exact now
      · rw [← String.join_cons] at h
        exact ih h further within
    · rename_i free
      exact absurd h free

theorem aliasFor_eq (ns : Namespace) (name : String) :
    ∃ before last, Name.segments name = before.reverse ++ [last] ∧
      ns.aliasFor name = freeAlias ns.taken before (String.join [last]) := by
  rw [aliasFor]
  split
  · rename_i h
    exact absurd (List.reverse_eq_nil_iff.1 h) (by simp [Name.segments, Text.cut, List.splitOn_ne_nil])
  · rename_i last before h
    exact ⟨before, last, by simpa using congrArg List.reverse h, by simp⟩

theorem aliasFor_spelling (ns : Namespace) (name : String) : Spelling name (ns.aliasFor name) := by
  obtain ⟨before, last, whole, chosen⟩ := ns.aliasFor_eq name
  obtain ⟨t, filled, within, spelled⟩ := exists_freeAlias_eq ns.taken before (List.cons_ne_nil last [])
  exact ⟨t, filled, whole ▸ within, chosen.trans spelled⟩

theorem aliasFor_mem_taken_iff (ns : Namespace) (name : String) :
    ns.aliasFor name ∈ ns.taken ↔ ∀ x, Spelling name x → x ∈ ns.taken := by
  constructor
  · rintro h x ⟨t, filled, within, rfl⟩
    obtain ⟨before, last, whole, chosen⟩ := ns.aliasFor_eq name
    rw [whole] at within
    rw [chosen] at h
    obtain empty | some := eq_or_suffix (List.nil_suffix) within
    · exact absurd empty filled
    · exact mem_of_freeAlias_mem h some within
  · intro all
    exact all _ (ns.aliasFor_spelling name)

theorem mem_taken {ns : Namespace} {x : String} :
    x ∈ ns.taken ↔ .text x ∈ ns.uses.values ∨ .text x ∈ ns.elements.keys := by
  rw [taken, List.mem_filterMap]
  constructor
  · rintro ⟨v, hv, hx⟩
    cases v <;> cases hx
    exact List.mem_append.1 hv
  · intro h
    exact ⟨.text x, List.mem_append.2 h, rfl⟩

def since (ns : Namespace) (before : List (String × Value)) : Namespace := { ns with uses := ⟨before⟩ }

def Chosen (ns : Namespace) : Prop :=
  Table.Throughout (fun before e => e.2 = .text ((ns.since before).aliasFor e.1)) ns.uses.entries

theorem addUse_cases (ns : Namespace) (name : String) :
    ns.addUse name .null = ns ∨
      ns.addUse name .null = ns.since
        (ns.uses.entries ++ [(Name.relative name, .text (ns.aliasFor (Name.relative name)))]) := by
  by_cases known : ((Name.relative name).isEmpty || ns.uses.contains (Name.relative name)) = true
  · left
    simp only [addUse, known, if_true]
  · right
    have new : Name.relative name ∉ ns.uses.keys := by
      simp only [Bool.or_eq_true, not_or, Table.contains, List.contains_eq_mem, decide_eq_true_eq] at known
      exact known.2
    simp only [addUse, known, Value.truthy, since, Bool.false_eq_true, if_false]
    rw [← Table.entries_insert_of_not_mem new]

theorem Chosen.addUse {ns : Namespace} (h : ns.Chosen) (name : String) : (ns.addUse name .null).Chosen := by
  obtain same | grown := ns.addUse_cases name
  · rwa [same]
  · rw [grown]
    exact Table.throughout_concat.2 ⟨h, rfl⟩

theorem addUses_chosen {ns : Namespace} (h : ns.Chosen) (names : List String) :
    (names.foldl (fun ns name => ns.addUse name .null) ns).Chosen := by
  induction names generalizing ns with
  | nil => exact h
  | cons name r ih => exact ih (h.addUse name)

/-- When it came, each import could be spelled like no alias before it and not like the element. -/
def Roomy (uses : Table Value) (short : String) : Prop :=
  uses.entries |> Table.Throughout fun before e =>
    ∃ x, Spelling e.1 x ∧ .text x ∉ Value.text short :: before.map Prod.snd

theorem Chosen.distinct_iff {ns : Namespace} (h : ns.Chosen) {short : String}
    (only : ns.elements.keys = [.text short]) :
    (ns.uses.values.Nodup ∧ .text short ∉ ns.uses.values) ↔ Roomy ns.uses short := by
  rw [and_comm, ← List.nodup_cons, Table.values, Table.nodup_cons_iff_throughout]
  refine Table.throughout_congr h fun before e chosen => ?_
  have taken (x : String) : x ∈ (ns.since before).taken ↔ .text x ∈ Value.text short :: before.map Prod.snd := by
    rw [mem_taken, List.mem_cons, or_comm]
    simp [since, only, Table.values]
  rw [chosen, ← taken, aliasFor_mem_taken_iff]
  simp [taken]

end Namespace

namespace Blueprint

variable {b : Blueprint} {strictTypes : Bool} {f : SourceFile}

theorem declaring_chosen (b : Blueprint) : b.declaring.Chosen := by
  refine Namespace.addUses_chosen ?_ _
  exact Table.throughout_nil

/-- The aliases of a file are distinct, and none is the last segment of the name, exactly when every import had room.
The element goes by that segment unless its recipe answers the one that it was given. -/
theorem build_aliases (h : (b.build strictTypes).2 = .ok f) :
    ∃ ns e, f.namespaces.values = [ns] ∧ ns.elements.values = [e] ∧ (e.name = .text b.short ∨ b.Returns e) ∧
      ((ns.uses.values.Nodup ∧ .text b.short ∉ ns.uses.values) ↔ Namespace.Roomy ns.uses b.short) := by
  have only : b.declaring.elements.keys = [.text b.short] := by
    rw [declaring_elements]
    rfl
  obtain ⟨e, made, rfl⟩ := build_eq_ok.1 h
  exact ⟨{ b.declaring with elements := ⟨[(.text b.short, e)]⟩ }, e, rfl, rfl, made.named,
    b.declaring_chosen.distinct_iff only⟩

theorem build_aliases_prefixed :
    ∃ f ns e,
      (({ name := "App\\C", kind := .cls, imports := ["Q\\B", "A\\B"] } : Blueprint).build true).2 = .ok f ∧
      f.namespaces.values = [ns] ∧ ns.elements.values = [e] ∧ e.name = .text "C" ∧
      ns.uses.values = [.text "B", .text "AB"] ∧ Namespace.Roomy ns.uses "C" := by
  obtain ⟨ns, e, hns, he, named, exactly⟩ :=
    @build_aliases { name := "App\\C", kind := .cls, imports := ["Q\\B", "A\\B"] } true _ rfl
  have short : Blueprint.short { name := "App\\C", kind := .cls, imports := ["Q\\B", "A\\B"] } = "C" := rfl
  have aliases : ns.uses.values = [.text "B", .text "AB"] := by
    rw [← List.singleton_inj.1 hns]
    rfl
  rw [short] at named exactly
  refine ⟨_, ns, e, rfl, hns, he, named.resolve_right ?_, aliases, exactly.1 ?_⟩
  · rintro ⟨_, ⟨⟩, -⟩
  · rw [aliases]
    simp

/-- A name none of whose runs is free goes by the longest, and a name of one segment has only that one. -/
theorem build_aliases_shared :
    ∃ f ns e,
      (({ name := "App\\C", kind := .cls, imports := ["Q\\B", "R\\AB", "A\\B", "C"] } : Blueprint).build true).2 =
        .ok f ∧
      f.namespaces.values = [ns] ∧ ns.elements.values = [e] ∧
      ns.uses.values = [.text "B", .text "AB", .text "AB", .text "C"] ∧
      ¬ ns.uses.values.Nodup ∧ e.name ∈ ns.uses.values := by
  refine ⟨_, _, _, rfl, rfl, rfl, rfl, ?_, ?_⟩
  · show ¬ [Value.text "B", .text "AB", .text "AB", .text "C"].Nodup
    simp
  · show Value.text "C" ∈ [Value.text "B", .text "AB", .text "AB", .text "C"]
    simp

end Blueprint

end PhpScaffold
