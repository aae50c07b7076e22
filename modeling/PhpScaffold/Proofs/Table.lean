import PhpScaffold.Table
import Mathlib.Data.List.Induction
import Mathlib.Data.List.Nodup

namespace PhpScaffold.Table

variable {α : Type u} {t : Table α} {k : String} {a : α}

theorem mem_keys_of_mem (h : (k, a) ∈ t.entries) : k ∈ t.keys := List.mem_map_of_mem h

theorem mem_entries_iff (distinct : t.keys.Nodup) : (k, a) ∈ t.entries ↔ t.get? k = some a := by
  refine ⟨fun h => ?_, mem_of_get?⟩
  obtain ⟨es⟩ := t
  simp only [keys, get?] at *
  induction es with
  | nil => cases h
  | cons e r ih =>
    obtain ⟨new, rest⟩ := List.nodup_cons.1 distinct
    obtain rfl | later := List.mem_cons.1 h
    · exact List.lookup_cons_self
    · have other : k ≠ e.1 := fun same => new (same ▸ List.mem_map_of_mem later)
      rw [List.lookup_cons, beq_false_of_ne other]
      exact ih rest later

theorem exists_get?_of_mem_keys (h : k ∈ t.keys) : ∃ a, t.get? k = some a := by
  obtain ⟨es⟩ := t
  simp only [keys, get?] at *
  induction es with
  | nil => cases h
  | cons e r ih =>
    by_cases same : k = e.1
    · subst same
      exact ⟨e.2, List.lookup_cons_self⟩
    · rw [List.lookup_cons, beq_false_of_ne same]
      exact ih ((List.mem_cons.1 h).resolve_left same)

theorem nodup_keys_insert (distinct : t.keys.Nodup) (k : String) (a : α) : (t.insert k a).keys.Nodup := by
  rw [keys_insert]
  split
  · exact distinct
  · rename_i new
    rw [← List.concat_eq_append]
    exact List.Nodup.concat new distinct

theorem nodup_keys_insertAll (distinct : t.keys.Nodup) (es : List (String × α)) : (t.insertAll es).keys.Nodup := by
  induction es generalizing t with
  | nil => exact distinct
  | cons e r ih => exact ih (nodup_keys_insert distinct e.1 e.2)

theorem nodup_keys_ofList (es : List (String × α)) : (ofList es).keys.Nodup :=
  nodup_keys_insertAll (t := empty) List.nodup_nil es

theorem insertAll_cons (t : Table α) (e : String × α) (r : List (String × α)) :
    t.insertAll (e :: r) = (t.insert e.1 e.2).insertAll r := rfl

theorem insertAll_append (t : Table α) (es fs : List (String × α)) :
    t.insertAll (es ++ fs) = (t.insertAll es).insertAll fs := List.foldl_append

theorem ofList_append_singleton (es : List (String × α)) (e : String × α) :
    ofList (es ++ [e]) = (ofList es).insert e.1 e.2 := insertAll_append empty es [e]

theorem keys_ofList (es : List (String × α)) : (ofList es).keys = (es.map Prod.fst).eraseDups := by
  induction es using List.reverseRecOn with
  | nil => rfl
  | append_singleton r e ih =>
    rw [ofList_append_singleton, keys_insert, ih, List.map_append, List.eraseDups_append]
    by_cases old : e.1 ∈ r.map Prod.fst <;> simp [List.removeAll, List.eraseDups_cons, old]

theorem get?_ofList (es : List (String × α)) (k : String) : (ofList es).get? k = es.reverse.lookup k := by
  induction es using List.reverseRecOn with
  | nil => rfl
  | append_singleton r e ih =>
    rw [ofList_append_singleton, get?_insert, ih, List.reverse_append, List.reverse_singleton, List.singleton_append,
      List.lookup_cons]
    by_cases same : k = e.1 <;> simp [same, beq_false_of_ne]

theorem exists_keys_insertAll (t : Table α) (es : List (String × α)) :
    ∃ more, (t.insertAll es).keys = t.keys ++ more ∧ ∀ k ∈ more, k ∈ es.map Prod.fst := by
  induction es generalizing t with
  | nil => exact ⟨[], by simp [insertAll], by simp⟩
  | cons e r ih =>
    obtain ⟨more, keys, given⟩ := ih (t.insert e.1 e.2)
    rw [← insertAll_cons] at keys
    have later : ∀ k ∈ more, k ∈ (e :: r).map Prod.fst := fun k hk => List.mem_cons_of_mem _ (given k hk)
    rw [keys_insert] at keys
    split at keys
    · exact ⟨more, keys, later⟩
    · refine ⟨e.1 :: more, by simpa using keys, ?_⟩
      exact List.forall_mem_cons.2 ⟨List.mem_cons_self, later⟩

theorem get?_insertAll (t : Table α) {es : List (String × α)} (distinct : (es.map Prod.fst).Nodup) (k : String) :
    (t.insertAll es).get? k = (es.lookup k).or (t.get? k) := by
  induction es generalizing t with
  | nil => rfl
  | cons e r ih =>
    obtain ⟨new, rest⟩ := List.nodup_cons.1 distinct
    rw [insertAll_cons, ih _ rest, get?_insert, List.lookup_cons]
    by_cases same : k = e.1
    · subst same
      have absent : r.lookup e.1 = none := by
        rw [List.lookup_eq_none_iff]
        intro f hf
        rw [bne_iff_ne]
        intro same
        exact new (same ▸ List.mem_map_of_mem hf)
      simp [absent]
    · simp [same, beq_false_of_ne same]

theorem get?_insertAll_of_not_mem (t : Table α) {es : List (String × α)} (absent : k ∉ es.map Prod.fst) :
    (t.insertAll es).get? k = t.get? k := by
  induction es generalizing t with
  | nil => rfl
  | cons e r ih =>
    obtain ⟨other, rest⟩ := not_or.1 (mt List.mem_cons.2 absent)
    rw [insertAll_cons, ih _ rest, get?_insert, if_neg other]

theorem entries_insertAll {es : List (String × α)} (distinct : (t.keys ++ es.map Prod.fst).Nodup) :
    (t.insertAll es).entries = t.entries ++ es := by
  induction es generalizing t with
  | nil => exact (List.append_nil _).symm
  | cons e r ih =>
    have new : e.1 ∉ t.keys := fun inside => (List.nodup_append.1 distinct).2.2 _ inside _ List.mem_cons_self rfl
    have added := entries_insert_of_not_mem new e.2
    rw [insertAll_cons, ih, added, List.append_assoc, List.singleton_append]
    rw [keys, added]
    simpa [keys] using distinct

theorem mem_of_mem_insertAll {u : Table α} (first : t.keys.Nodup) (second : u.keys.Nodup)
    (h : (k, a) ∈ (t.insertAll u.entries).entries) : (k, a) ∈ u.entries ↔ k ∈ u.keys := by
  refine ⟨mem_keys_of_mem, fun given => ?_⟩
  obtain ⟨b, stored⟩ := exists_get?_of_mem_keys given
  have merged := (mem_entries_iff (nodup_keys_insertAll first _)).1 h
  rw [get?_insertAll t second k, show u.entries.lookup k = some b from stored] at merged
  obtain rfl := Option.some.inj merged
  exact mem_of_get? stored

end PhpScaffold.Table
