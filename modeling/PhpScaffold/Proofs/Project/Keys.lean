import PhpScaffold.Project
import Mathlib.Data.List.Induction
import Mathlib.Data.List.Nodup
import Mathlib.Data.List.Perm.Subperm
import Mathlib.Order.Bounds.Defs

namespace PhpScaffold.Project

def numbered (name : String) (n : Nat) : String := name ++ "_" ++ toString n

theorem numbered_injective (name : String) : Function.Injective (numbered name) := by
  intro m n h
  have digits : (toString m).toList = (toString n).toList := by
    simpa [numbered] using congrArg String.toList h
  have read := congrArg (Nat.ofDigitChars 10 · 0) digits
  simpa using read

theorem exists_numbered_not_mem (keys : List String) (name : String) :
    ∃ n < keys.length + 1, numbered name (n + 1) ∉ keys := by
  by_contra all
  have taken : ((List.range (keys.length + 1)).map fun n => numbered name (n + 1)) ⊆ keys := by
    intro k hk
    obtain ⟨n, hn, rfl⟩ := List.mem_map.1 hk
    by_contra new
    exact all ⟨n, List.mem_range.1 hn, new⟩
  have distinct : ((List.range (keys.length + 1)).map fun n => numbered name (n + 1)).Nodup := by
    refine List.nodup_range.map fun m n h => ?_
    exact Nat.succ.inj (numbered_injective name h)
  have many := (distinct.subperm taken).length_le
  rw [List.length_map, List.length_range] at many
  exact absurd many (Nat.not_succ_le_self _)

inductive KeyOf (keys : List String) (name : String) : String → Prop
  | name : name ∉ keys → KeyOf keys name name
  | numbered {n : Nat} : name ∈ keys → IsLeast {n | 1 ≤ n ∧ numbered name n ∉ keys} n →
    KeyOf keys name (numbered name n)

theorem KeyOf.not_mem {keys : List String} {name key : String} (h : KeyOf keys name key) : key ∉ keys := by
  cases h with
  | name new => exact new
  | numbered _ least => exact least.1.2

theorem keyOf_freshKey (keys : List String) (name : String) : KeyOf keys name (freshKey keys name) := by
  unfold freshKey
  split
  · rename_i taken
    obtain ⟨m, bound, new⟩ := exists_numbered_not_mem keys name
    have found : ((List.range (keys.length + 1)).find? fun n => numbered name (n + 1) ∉ keys).isSome := by
      rw [List.find?_isSome]
      exact ⟨m, List.mem_range.2 bound, decide_eq_true new⟩
    obtain ⟨n, first⟩ := Option.isSome_iff_exists.1 found
    have search : ((List.range (keys.length + 1)).map fun n => numbered name (n + 1)).find? (· ∉ keys) =
        some (numbered name (n + 1)) := by
      rw [List.find?_map]
      exact congrArg (Option.map fun n => numbered name (n + 1)) first
    change KeyOf keys name
      ((((List.range (keys.length + 1)).map fun n => numbered name (n + 1)).find? (· ∉ keys)).getD name)
    rw [search, Option.getD_some]
    obtain ⟨free, -, below⟩ := List.find?_range_eq_some.1 first
    refine .numbered taken ⟨⟨Nat.succ_pos n, of_decide_eq_true free⟩, ?_⟩
    rintro k ⟨positive, unused⟩
    by_contra less
    have before := below (k - 1) (by omega)
    rw [Nat.sub_add_cancel positive] at before
    simp [unused] at before
  · exact .name ‹_›

theorem entries_add (p : Project) (name : String) (s : Source) :
    (p.add name s).entries.entries = p.entries.entries ++ [(freshKey p.keys name, s)] :=
  Table.entries_insert_of_not_mem (keyOf_freshKey p.keys name).not_mem s

theorem keys_add (p : Project) (name : String) (s : Source) :
    (p.add name s).keys = p.keys ++ [freshKey p.keys name] := by
  rw [keys, Table.keys, entries_add, List.map_append]
  rfl

inductive Addition
  | blueprint (b : Blueprint)
  | factory (name : String) (answer : Nat → Answer Source)

namespace Addition

def name : Addition → String
  | blueprint b => b.name
  | factory name _ => name

def source : Addition → Source
  | blueprint b => .held b
  | factory _ answer => .factory answer

def run (p : Project) : Addition → Project
  | blueprint b => p.addBlueprint b
  | factory name answer => p.addFactory name answer

theorem run_eq (p : Project) (a : Addition) : a.run p = p.add a.name a.source := by
  cases a <;> rfl

end Addition

def ofAdditions (as : List Addition) : Project := as.foldl Addition.run {}

variable {as : List Addition}

theorem ofAdditions_concat (as : List Addition) (a : Addition) :
    ofAdditions (as ++ [a]) = (ofAdditions as).add a.name a.source := by
  rw [ofAdditions, List.foldl_append, List.foldl_cons, List.foldl_nil, Addition.run_eq]
  rfl

theorem nodup_keys_ofAdditions (as : List Addition) : (ofAdditions as).keys.Nodup := by
  induction as using List.reverseRecOn with
  | nil => exact List.nodup_nil
  | append_singleton as a ih =>
    rw [ofAdditions_concat, keys_add, ← List.concat_eq_append]
    exact ih.concat (keyOf_freshKey _ _).not_mem

theorem exists_entries_append (before after : List Addition) :
    ∃ later, (ofAdditions (before ++ after)).entries.entries = (ofAdditions before).entries.entries ++ later ∧
      later.length = after.length := by
  induction after using List.reverseRecOn with
  | nil => exact ⟨[], by simp, rfl⟩
  | append_singleton after a ih =>
    obtain ⟨later, entries, count⟩ := ih
    rw [← List.append_assoc, ofAdditions_concat, entries_add, entries, List.append_assoc]
    exact ⟨_, rfl, by simp [count]⟩

/-- Every addition has a key of its own, in the order of the additions, and keeps what it came with: after any
additions the key is the name, unless that is taken, and else the name with the least number that makes it new. -/
theorem entries_ofAdditions (as : List Addition) :
    (ofAdditions as).size = as.length ∧ (ofAdditions as).keys.Nodup ∧
      ∀ before a after, as = before ++ a :: after →
        ∃ key later, (ofAdditions as).entries.entries =
            (ofAdditions before).entries.entries ++ (key, a.source) :: later ∧
          (ofAdditions before).size = before.length ∧ later.length = after.length ∧
          KeyOf (ofAdditions before).keys a.name key := by
  have size (bs : List Addition) : (ofAdditions bs).size = bs.length := by
    obtain ⟨later, entries, count⟩ := exists_entries_append [] bs
    rw [Project.size, ← count]
    exact congrArg List.length entries
  refine ⟨size as, nodup_keys_ofAdditions as, ?_⟩
  rintro before a after rfl
  obtain ⟨later, entries, count⟩ := exists_entries_append (before ++ [a]) after
  rw [List.append_assoc, List.singleton_append, ofAdditions_concat, entries_add, List.append_assoc,
    List.singleton_append] at entries
  exact ⟨_, later, entries, size before, count, keyOf_freshKey _ _⟩

def plainClass (name : String) : Addition := .blueprint { name, kind := .cls }

def alike : List Addition := [plainClass "A", plainClass "A_1", plainClass "A", plainClass "A"]

theorem entries_ofAdditions_alike : alike = [plainClass "A", plainClass "A_1"] ++ plainClass "A" :: [plainClass "A"] ∧
    (ofAdditions alike).keys = ["A", "A_1", "A_2", "A_3"] ∧ ∃ key later, (ofAdditions alike).entries.entries =
      (ofAdditions [plainClass "A", plainClass "A_1"]).entries.entries ++ (key, (plainClass "A").source) :: later ∧
      key = "A_2" ∧ KeyOf ["A", "A_1"] "A" key := by
  have keys : (ofAdditions alike).keys = ["A", "A_1", "A_2", "A_3"] := by decide +kernel
  have first : (ofAdditions [plainClass "A", plainClass "A_1"]).keys = ["A", "A_1"] := by decide +kernel
  obtain ⟨-, -, each⟩ := entries_ofAdditions alike
  obtain ⟨key, later, entries, -, -, given⟩ := each [plainClass "A", plainClass "A_1"] (plainClass "A") _ rfl
  refine ⟨rfl, keys, key, later, entries, ?_, first ▸ given⟩
  have third : (ofAdditions alike).keys[2]? = some key := by
    rw [Project.keys, Table.keys, entries, List.map_append]
    rfl
  rw [keys] at third
  exact (Option.some.inj third).symm

end PhpScaffold.Project
