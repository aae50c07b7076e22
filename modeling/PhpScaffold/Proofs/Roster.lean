import PhpScaffold.Proofs.Except
import PhpScaffold.Roster
import Mathlib.Data.List.Induction

namespace PhpScaffold

variable {α β : Type}

namespace Value

def Apart (vs : List Value) : Prop := vs.Pairwise fun before after => ¬ same after before

theorem apart_insertItem {vs : List Value} (h : Apart vs) (v : Value) : Apart (insertItem vs v) := by
  unfold insertItem
  split
  · exact h
  · rename_i new
    refine List.pairwise_append.2 ⟨h, List.pairwise_singleton _ _, fun w hw u hu => ?_⟩
    obtain rfl := List.mem_singleton.1 hu
    exact fun same => new (List.any_eq_true.2 ⟨w, hw, same⟩)

theorem distinct_concat (vs : List Value) (v : Value) : distinct (vs ++ [v]) = insertItem (distinct vs) v := by
  rw [distinct, List.foldl_append]
  rfl

theorem prefix_insertItem (vs : List Value) (v : Value) : vs <+: insertItem vs v := by
  unfold insertItem
  split
  · exact List.prefix_refl vs
  · exact List.prefix_append vs [v]

theorem insertItem_sublist (vs : List Value) (v : Value) : (insertItem vs v).Sublist (vs ++ [v]) := by
  unfold insertItem
  split
  · exact List.sublist_append_left vs [v]
  · exact List.Sublist.refl _

structure Firsts (given kept : List Value) : Prop where
  apart : Apart kept
  sublist : kept.Sublist given
  early : ∀ before after, given = before ++ after → distinct before <+: kept
  all : ∀ v ∈ given, v ∈ kept ∨ ∃ w ∈ kept, same v w

theorem firsts_distinct (vs : List Value) : Firsts vs (distinct vs) := by
  -- from the end, where a value is put in unless one like it is there
  induction vs using List.reverseRecOn with
  | nil => exact ⟨List.Pairwise.nil, List.Sublist.refl _, by simp [distinct], by simp⟩
  | append_singleton vs v ih =>
    rw [distinct_concat]
    have grown := prefix_insertItem (distinct vs) v
    refine ⟨apart_insertItem ih.apart v, (insertItem_sublist _ v).trans (ih.sublist.append_right [v]), ?_, ?_⟩
    · intro before after whole
      obtain rfl | ⟨after, w, rfl⟩ := List.eq_nil_or_concat after
      · rw [List.append_nil] at whole
        have same : distinct before = insertItem (distinct vs) v := whole ▸ distinct_concat vs v
        exact same ▸ List.prefix_refl _
      · rw [List.concat_eq_append, ← List.append_assoc] at whole
        exact (ih.early before after (List.append_inj' whole rfl).1).trans grown
    · intro w hw
      obtain old | new := List.mem_append.1 hw
      · obtain kept | ⟨u, hu, like⟩ := ih.all w old
        · exact .inl (grown.subset kept)
        · exact .inr ⟨u, grown.subset hu, like⟩
      · obtain rfl := List.mem_singleton.1 new
        unfold insertItem
        split
        · rename_i there
          obtain ⟨u, hu, like⟩ := List.any_eq_true.1 there
          exact .inr ⟨u, hu, like⟩
        · exact .inl (List.mem_append_right _ List.mem_cons_self)

end Value

namespace Roster

variable {r r' : Roster α} {k : Value} {a b : α} {name : α → Value}

def map (f : α → β) (r : Roster α) : Roster β := ⟨r.entries.map fun e => (e.1, f e.2)⟩

@[simp] theorem keys_map (f : α → β) (r : Roster α) : (r.map f).keys = r.keys := by
  simp [map, keys, Function.comp_def]

@[simp] theorem contains_map (f : α → β) (r : Roster α) (k : Value) : (r.map f).contains k = r.contains k := by
  rw [contains, keys_map, contains]

@[simp] theorem get?_map (f : α → β) (r : Roster α) (k : Value) : (r.map f).get? k = (r.get? k).map f := by
  simp only [get?, map, Value.lookup, List.find?_map, Option.map_map]
  rfl

@[simp] theorem map_insert (f : α → β) (r : Roster α) (k : Value) (a : α) :
    (r.insert k a).map f = (r.map f).insert k (f a) := by
  obtain ⟨es⟩ := r
  simp only [map, insert, mk.injEq]
  induction es with
  | nil => rfl
  | cons e es ih =>
    obtain ⟨l, b⟩ := e
    rw [Value.insertEntry]
    split <;> rename_i h <;> simp [Value.insertEntry, h, ih]

theorem map_ofList (f : α → β) (es : List (Value × α)) :
    (ofList es).map f = ofList (es.map fun e => (e.1, f e.2)) := by
  have grown (r : Roster α) : (es.foldl (fun r e => r.insert e.1 e.2) r).map f =
      (es.map fun e => (e.1, f e.2)).foldl (fun r e => r.insert e.1 e.2) (r.map f) := by
    induction es generalizing r with
    | nil => rfl
    | cons e es ih => rw [List.foldl_cons, ih, map_insert, List.map_cons, List.foldl_cons]
  exact grown {}

theorem contains_eq_false (h : r.contains k = false) : ∀ e ∈ r.entries, ¬ Value.same e.1 k := by
  intro e he same
  rw [contains, List.any_eq_false] at h
  exact h e.1 (List.mem_map_of_mem he) same

theorem exists_of_get? (h : r.get? k = some a) : ∃ before l after, r.entries = before ++ (l, a) :: after ∧
    Value.same l k ∧ ∀ b, (r.insert k b).entries = before ++ (l, b) :: after := by
  obtain ⟨es⟩ := r
  simp only [get?, Value.lookup, insert] at *
  induction es with
  | nil => simp at h
  | cons e es ih =>
    obtain ⟨l, c⟩ := e
    by_cases same : Value.same l k
    · obtain rfl : c = a := by simpa [List.find?_cons, same] using h
      exact ⟨[], l, es, rfl, same, fun b => by simp [Value.insertEntry, same]⟩
    · replace h : (es.find? fun e => Value.same e.1 k).map Prod.snd = some a := by
        simpa [List.find?_cons, same] using h
      obtain ⟨before, m, after, rfl, like, replaced⟩ := ih h
      exact ⟨(l, c) :: before, m, after, rfl, like, fun b => by simp [Value.insertEntry, same, replaced]⟩

theorem insert_of_get? (h : r.get? k = some a) : r.insert k a = r := by
  obtain ⟨before, l, after, whole, -, replaced⟩ := exists_of_get? h
  obtain ⟨es⟩ := r
  exact congrArg Roster.mk ((replaced a).trans whole.symm)

theorem exists_get?_of_contains (h : r.contains k) : ∃ a, r.get? k = some a := by
  obtain ⟨l, hl, same⟩ := List.any_eq_true.1 h
  obtain ⟨e, he, rfl⟩ := List.mem_map.1 hl
  have found : (r.entries.find? fun e => Value.same e.1 k).isSome := List.find?_isSome.2 ⟨e, he, same⟩
  obtain ⟨f, first⟩ := Option.isSome_iff_exists.1 found
  exact ⟨f.2, by rw [get?, Value.lookup, first, Option.map_some]⟩

theorem contains_of_get? (h : r.get? k = some a) : r.contains k := by
  obtain ⟨before, l, after, whole, same, -⟩ := exists_of_get? h
  rw [contains, keys, whole]
  simp [same]

theorem get?_of_not_contains (h : r.contains k = false) : r.get? k = none := by
  cases found : r.get? k with
  | none => rfl
  | some a =>
    rw [contains_of_get? found] at h
    cases h

theorem entries_insert_of_new (h : r.contains k = false) (a : α) :
    (r.insert k a).entries = r.entries ++ [(k, a)] := by
  obtain ⟨es⟩ := r
  have new := contains_eq_false h
  simp only [insert] at *
  clear h
  induction es with
  | nil => rfl
  | cons e es ih =>
    obtain ⟨other, rest⟩ := List.forall_mem_cons.1 new
    rw [Value.insertEntry, if_neg other, ih rest, List.cons_append]

inductive Placed (k : Value) (a : α) (r r' : Roster α) : Prop
  | replaced {before after : List (Value × α)} {l : Value} {b : α} : Value.same l k →
    r.entries = before ++ (l, b) :: after → r'.entries = before ++ (l, a) :: after → Placed k a r r'
  | last : r.contains k = false → r'.entries = r.entries ++ [(k, a)] → Placed k a r r'

theorem placed_insert (r : Roster α) (k : Value) (a : α) : r.Placed k a (r.insert k a) := by
  cases there : r.contains k with
  | false => exact .last there (entries_insert_of_new there a)
  | true =>
    obtain ⟨b, found⟩ := exists_get?_of_contains there
    obtain ⟨before, l, after, whole, same, replaced⟩ := exists_of_get? found
    exact .replaced same whole (replaced a)

theorem Placed.mem {e : Value × α} (h : r.Placed k a r') (he : e ∈ r'.entries) : e ∈ r.entries ∨ e.2 = a := by
  cases h with
  | replaced same old new =>
    rw [new] at he
    rw [old]
    obtain front | rfl | back : _ ∨ _ ∨ _ := by simpa using he
    · exact .inl (by simp [front])
    · exact .inr rfl
    · exact .inl (by simp [back])
  | last free new =>
    rw [new] at he
    obtain old | new := List.mem_append.1 he
    · exact .inl old
    · exact .inr (congrArg Prod.snd (List.mem_singleton.1 new))

def Keyed (name : α → Value) (r : Roster α) : Prop :=
  ∀ e ∈ r.entries, e.1 = name e.2 ∨ Value.same e.1 (name e.2)

def Distinct (r : Roster α) : Prop := r.keys.Pairwise fun before after => ¬ Value.same before after

theorem keyed_empty (name : α → Value) : ({} : Roster α).Keyed name := by simp [Keyed]

theorem distinct_empty : ({} : Roster α).Distinct := List.Pairwise.nil

theorem Placed.keyed (h : r.Placed k a r') (named : k = name a) (keyed : r.Keyed name) : r'.Keyed name := by
  subst named
  cases h with
  | replaced same old new =>
    rw [Keyed, old] at keyed
    rw [Keyed, new]
    obtain ⟨front, -, back⟩ : _ ∧ _ ∧ _ := by simpa only [List.forall_mem_append, List.forall_mem_cons] using keyed
    simpa only [List.forall_mem_append, List.forall_mem_cons] using ⟨front, .inr same, back⟩
  | last free new =>
    rw [Keyed, new, List.forall_mem_append, List.forall_mem_singleton]
    exact ⟨keyed, .inl rfl⟩

theorem Placed.distinct (h : r.Placed k a r') (distinct : r.Distinct) : r'.Distinct := by
  cases h with
  | replaced same old new =>
    rw [Distinct, keys, old, List.map_append, List.map_cons] at distinct
    rwa [Distinct, keys, new, List.map_append, List.map_cons]
  | last free new =>
    rw [Distinct, keys, new, List.map_append]
    refine List.pairwise_append.2 ⟨distinct, List.pairwise_singleton _ _, fun l hl m hm => ?_⟩
    obtain rfl := List.mem_singleton.1 hm
    obtain ⟨e, he, rfl⟩ := List.mem_map.1 hl
    exact contains_eq_false free e he

section

variable {P : Roster α → Prop} {es : List (Value × α)}

theorem ofList_induct (empty : P {}) (step : ∀ r, ∀ e ∈ es, P r → P (r.insert e.1 e.2)) : P (ofList es) := by
  have grown (r : Roster α) (h : P r) (fs : List (Value × α)) (inside : ∀ e ∈ fs, e ∈ es) :
      P (fs.foldl (fun r e => r.insert e.1 e.2) r) := by
    induction fs generalizing r with
    | nil => exact h
    | cons e fs ih =>
      obtain ⟨first, rest⟩ := List.forall_mem_cons.1 inside
      exact ih _ (step r e first h) rest
  exact grown {} empty es fun _ => id

end

theorem keyed_ofList {es : List (Value × α)} (named : ∀ e ∈ es, e.1 = name e.2) : (ofList es).Keyed name :=
  ofList_induct (keyed_empty name) fun r e he keyed => (r.placed_insert e.1 e.2).keyed (named e he) keyed

theorem distinct_ofList (es : List (Value × α)) : (ofList es).Distinct :=
  ofList_induct distinct_empty fun r e _ distinct => (r.placed_insert e.1 e.2).distinct distinct

theorem mem_of_mem_ofList {es : List (Value × α)} {a : α} (h : a ∈ (ofList es).values) : a ∈ es.map Prod.snd := by
  revert h
  refine ofList_induct (P := fun r => a ∈ r.values → a ∈ es.map Prod.snd) (by simp [values]) fun r e he inside h => ?_
  obtain ⟨f, hf, rfl⟩ := List.mem_map.1 h
  obtain old | new := (r.placed_insert e.1 e.2).mem hf
  · exact inside (List.mem_map_of_mem old)
  · exact new ▸ List.mem_map_of_mem he

theorem entries_ofList {es : List (Value × α)} (h : es.Pairwise fun e f => ¬ Value.same e.1 f.1) :
    (ofList es).entries = es := by
  induction es using List.reverseRecOn with
  | nil => rfl
  | append_singleton es e ih =>
    obtain ⟨rest, -, last⟩ := List.pairwise_append.1 h
    have built : ofList (es ++ [e]) = (ofList es).insert e.1 e.2 := by rw [ofList, List.foldl_append]; rfl
    have new : (ofList es).contains e.1 = false := by
      rw [contains, List.any_eq_false, keys, ih rest]
      intro k hk
      obtain ⟨f, hf, rfl⟩ := List.mem_map.1 hk
      exact last f hf e List.mem_cons_self
    rw [built, entries_insert_of_new new, ih rest]

end Roster

end PhpScaffold
