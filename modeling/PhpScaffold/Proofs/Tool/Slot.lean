import PhpScaffold.Tool.Validate
import PhpScaffold.Proofs.Except
import PhpScaffold.Proofs.Table

namespace PhpScaffold.Tool

def slotNames (c : Command) : List String :=
  c.arguments.map (fun a => slotName a.name) ++ c.options.map (fun o => slotName o.name) ++ ["dry_run"]

def ownNames : List String := ["model_extra", surplusName, "model_fields_set", rulesName] ++ noteNames

/-- A command whose slots can be made, and told apart from each other and from what a set of parameters says of
itself. -/
structure Regular (c : Command) : Prop where
  distinct : (slotNames c ++ ownNames).Nodup
  faultless : (slotFault? (slots c)).isNone
  storable : ∀ k ∈ (slots c).values.map Slot.key, isStorable (.text k)

def argumentSlot (a : Argument) : Slot :=
  if a.required then ⟨camelCase a.name, .string, none⟩ else ⟨camelCase a.name, .optionalString, some .null⟩

def optionSlot (o : Choice) : Slot := ⟨camelCase o.name, .ofType (optionType o), some o.fallback⟩

def drySlot : Slot := ⟨dryRunKey, .boolean, some (.bool false)⟩

@[simp] theorem key_argumentSlot (a : Argument) : (argumentSlot a).key = camelCase a.name := by
  unfold argumentSlot
  split <;> rfl

theorem keys_ownValues (slots : Table Slot) (given : List (Value × Value)) :
    ∀ n ∈ (ownValues slots given).keys, n ∈ ownNames := by
  intro n hn
  simp only [ownValues, Table.keys, List.map_append, List.map_cons, List.map_nil, List.mem_append] at hn
  obtain own | note := hn
  · simp only [List.mem_cons, List.not_mem_nil, or_false] at own
    obtain rfl | rfl | rfl | rfl := own <;> simp [ownNames]
  · obtain ⟨e, he, rfl⟩ := List.mem_map.1 note
    obtain ⟨m, hm, made⟩ := List.mem_filterMap.1 he
    obtain ⟨s, -, rfl⟩ := Option.map_eq_some_iff.1 made
    exact List.mem_append_right _ hm

section

variable {given : List (Value × Value)} {s : Slot} {v : Value}

theorem fill_eq_ok : fill given s = .ok v ↔
    (Value.lookupText s.key given = none ∧ s.default = some v) ∨
      ∃ w, Value.lookupText s.key given = some w ∧ s.expected.accept? w = some v := by
  unfold fill
  cases Value.lookupText s.key given with
  | none => cases s.default <;> simp
  | some w => cases accepted : s.expected.accept? w <;> simp [accepted]

theorem problem?_eq_none {r : Except Problem Value} : problem? r = none ↔ ∃ v, r = .ok v := by
  cases r <;> simp [problem?]

theorem unknownKey?_eq_none {slots : Table Slot} {k : Value} :
    unknownKey? slots k = none ↔ ∃ key ∈ slots.values.map Slot.key, k = .text key := by
  cases k <;> simp [unknownKey?]

theorem problems_eq_nil {slots : Table Slot} (storable : ∀ k ∈ slots.values.map Slot.key, isStorable (.text k)) :
    problems slots given = [] ↔
      (∀ e ∈ given, ∃ key ∈ slots.values.map Slot.key, e.1 = .text key) ∧
        ∀ s ∈ slots.values, ∃ v, fill given s = .ok v := by
  have filled : (slots.map (fill given)).values.filterMap problem? = [] ↔
      ∀ s ∈ slots.values, ∃ v, fill given s = .ok v := by
    rw [Table.values_map, List.filterMap_map, List.filterMap_eq_nil_iff]
    exact forall₂_congr fun s _ => problem?_eq_none
  have known : (given.map Prod.fst).filterMap (unknownKey? slots) = [] ↔
      ∀ e ∈ given, ∃ key ∈ slots.values.map Slot.key, e.1 = .text key := by
    rw [List.filterMap_map, List.filterMap_eq_nil_iff]
    exact forall₂_congr fun e _ => unknownKey?_eq_none
  rw [problems]
  by_cases keys : (given.map Prod.fst).all isStorable = true
  · rw [if_pos keys, List.append_eq_nil_iff, filled, known, and_comm]
  · -- a key that cannot be stored is the key of no slot
    rw [if_neg keys]
    refine iff_of_false (List.cons_ne_nil _ _) fun h => keys ?_
    rw [List.all_map, List.all_eq_true]
    intro e he
    obtain ⟨k, hk, key⟩ := h.1 e he
    rw [Function.comp_apply, key]
    exact storable k hk

end

theorem validate_of_problems {c : Command} {given : List (Value × Value)} {p : Problem} {ps : List Problem}
    (faultless : slotFault? (slots c) = none) (found : problems (fillable (slots c)) given = p :: ps) :
    validate c given = .error (.parameters (p :: ps)) := by
  simp only [validate, faultless, found]
  rfl

def checked (c : Command) (given : List (Value × Value)) : Table Value :=
  (((slots c).map (fill given)).map value?).insertAll (ownValues (slots c) given).entries

section

variable {c : Command} {given : List (Value × Value)} (regular : Regular c)

include regular

theorem Regular.entries_slots : (slots c).entries =
    c.arguments.map (fun a => (slotName a.name, argumentSlot a)) ++
      c.options.map (fun o => (slotName o.name, optionSlot o)) ++ [("dry_run", drySlot)] := by
  rw [slots, Table.ofList, Table.entries_insertAll]
  · rfl
  · have names := (List.nodup_append.1 regular.distinct).1
    simpa [slotNames, Table.keys, Table.empty, Function.comp_def] using names

theorem Regular.keys_slots : (slots c).keys = slotNames c := by
  rw [Table.keys, regular.entries_slots]
  simp [slotNames, Function.comp_def]

theorem Regular.forall_slots {P : Slot → Prop} : (∀ s ∈ (slots c).values, P s) ↔
    (∀ a ∈ c.arguments, P (argumentSlot a)) ∧ (∀ o ∈ c.options, P (optionSlot o)) ∧ P drySlot := by
  rw [Table.values, regular.entries_slots]
  simp only [List.map_append, List.map_map, List.forall_mem_append, List.forall_mem_map, List.map_cons, List.map_nil,
    List.forall_mem_singleton, Function.comp_apply, and_assoc]

theorem Regular.not_mem_ownNames {n : String} (slot : n ∈ slotNames c) : n ∉ ownNames := fun own =>
  (List.nodup_append.1 regular.distinct).2.2 n slot n own rfl

theorem Regular.fillable_slots : fillable (slots c) = slots c := by
  have all : (slots c).entries.filter (fun e => !isOwn e.1) = (slots c).entries := by
    rw [List.filter_eq_self]
    intro e he
    have slot : e.1 ∈ slotNames c := regular.keys_slots ▸ List.mem_map_of_mem he
    have other := regular.not_mem_ownNames slot
    simp only [ownNames, List.mem_append, List.mem_cons, List.not_mem_nil, or_false, not_or] at other
    simp [isOwn, other]
  rw [fillable, all]

theorem Regular.get?_slots {n : String} {s : Slot} (h : (n, s) ∈ (slots c).entries) : (slots c).get? n = some s := by
  have distinct : (slots c).keys.Nodup := regular.keys_slots ▸ (List.nodup_append.1 regular.distinct).1
  exact (Table.mem_entries_iff distinct).1 h

theorem Regular.validate_eq_ok {values : Table Value} :
    validate c given = .ok values ↔ problems (slots c) given = [] ∧ values = checked c given := by
  have faultless : slotFault? (slots c) = none := Option.isNone_iff_eq_none.1 regular.faultless
  simp only [validate, faultless, regular.fillable_slots]
  split
  · rename_i none
    simp [none, checked, eq_comm]
  · rename_i some
    exact iff_of_false (by simp) fun h => some h.1

theorem Regular.get?_checked {n : String} {s : Slot} {v : Value} (slot : (n, s) ∈ (slots c).entries)
    (filled : fill given s = .ok v) : (checked c given).get? n = some v := by
  have named : n ∈ slotNames c := regular.keys_slots ▸ List.mem_map_of_mem slot
  rw [checked, Table.get?_insertAll_of_not_mem _ fun own => regular.not_mem_ownNames named (keys_ownValues _ _ n own),
    Table.get?_map, Table.get?_map, regular.get?_slots slot, Option.map_some, Option.map_some, filled]
  rfl

theorem Regular.get?_argument {a : Argument} (ha : a ∈ c.arguments) {v : Value}
    (filled : fill given (argumentSlot a) = .ok v) : (checked c given).get? (slotName a.name) = some v := by
  refine regular.get?_checked ?_ filled
  rw [regular.entries_slots]
  exact List.mem_append_left _ (List.mem_append_left _ (List.mem_map.2 ⟨a, ha, rfl⟩))

theorem Regular.get?_option {o : Choice} (ho : o ∈ c.options) {v : Value}
    (filled : fill given (optionSlot o) = .ok v) : (checked c given).get? (slotName o.name) = some v := by
  refine regular.get?_checked ?_ filled
  rw [regular.entries_slots]
  exact List.mem_append_left _ (List.mem_append_right _ (List.mem_map.2 ⟨o, ho, rfl⟩))

theorem Regular.get?_dryRun {v : Value} (filled : fill given drySlot = .ok v) :
    (checked c given).get? "dry_run" = some v := by
  refine regular.get?_checked ?_ filled
  rw [regular.entries_slots]
  exact List.mem_append_right _ List.mem_cons_self

end

end PhpScaffold.Tool
