import PhpScaffold.Proofs.Tool.Slot

namespace PhpScaffold.Tool

def slotKeys (c : Command) : List String :=
  c.arguments.map (fun a => camelCase a.name) ++ c.options.map (fun o => camelCase o.name) ++ [dryRunKey]

namespace FieldType

def Admits : FieldType → Value → Prop
  | boolean, .bool _ | integer, .int _ | number, .int _ | number, .float _ | string, .text _ => True
  | _, _ => False

def Carries : FieldType → Value → Prop
  | number, .int n => (Float.ofInt n).isFinite
  | _, _ => True

def passed : FieldType → Value → Value
  | number, .int n => .float (Float.ofInt n)
  | _, v => v

variable {τ : FieldType} {v w : Value}

theorem accept?_ofType : (Expected.ofType τ).accept? v = some w ↔ τ.Admits v ∧ τ.Carries v ∧ w = τ.passed v := by
  cases τ <;> cases v <;> simp [Expected.ofType, Expected.accept?, Admits, Carries, passed, @eq_comm _ w]

@[simp] theorem admits_string : string.Admits v ↔ ∃ s, v = .text s := by
  cases v <;> simp [Admits]

end FieldType

/-- What a schema allows: keys that it lists, all that it requires, and values of the types it gives. -/
structure Schema.Allows (s : Schema) (given : List (Value × Value)) : Prop where
  known : ∀ e ∈ given, ∃ k ∈ s.properties.keys, e.1 = .text k
  required : ∀ k ∈ s.required, (Value.lookupText k given).isSome
  typed : ∀ k f, s.properties.get? k = some f → ∀ v, Value.lookupText k given = some v → f.type.Admits v

section

variable {given : List (Value × Value)} {v : Value}

theorem fill_ofType {k : String} {τ : FieldType} {default : Value} :
    fill given ⟨k, .ofType τ, some default⟩ = .ok v ↔
      (∀ w, Value.lookupText k given = some w → τ.Admits w ∧ τ.Carries w) ∧
        v = ((Value.lookupText k given).map τ.passed).getD default := by
  rw [fill_eq_ok]
  cases Value.lookupText k given with
  | none => simp [@eq_comm _ v]
  | some w => simp [FieldType.accept?_ofType, and_assoc]

theorem fill_argumentSlot {a : Argument} :
    fill given (argumentSlot a) = .ok v ↔
      (a.required → (Value.lookupText (camelCase a.name) given).isSome) ∧
        (∀ w, Value.lookupText (camelCase a.name) given = some w →
          FieldType.string.Admits w ∨ (w = .null ∧ a.required = false)) ∧
        v = (Value.lookupText (camelCase a.name) given).getD .null := by
  rw [fill_eq_ok, key_argumentSlot]
  cases required : a.required <;> cases Value.lookupText (camelCase a.name) given with
  | none => simp [argumentSlot, required, @eq_comm _ v]
  | some w => cases w <;> simp [argumentSlot, required, Expected.accept?, @eq_comm _ v]

end

section

variable {c : Command} {given : List (Value × Value)} {values : Table Value} (distinct : (slotKeys c).Nodup)

include distinct

theorem keys_properties : (schema c).properties.keys = slotKeys c := by
  rw [schema, Table.ofList, Table.keys, Table.entries_insertAll]
  · simp [slotKeys, Table.empty, Function.comp_def]
  · simpa [slotKeys, Table.keys, Table.empty, Function.comp_def] using distinct

theorem forall_properties {P : String → Field → Prop} :
    (∀ k f, (schema c).properties.get? k = some f → P k f) ↔
      (∀ a ∈ c.arguments, P (camelCase a.name) ⟨.string, describe "Argument" a.name a.description, none⟩) ∧
      (∀ o ∈ c.options,
        P (camelCase o.name) ⟨optionType o, describe "Option" o.name o.description, some o.fallback⟩) ∧
      P dryRunKey ⟨.boolean, "Preview generated files without writing them", some (.bool false)⟩ := by
  have keys : (schema c).properties.keys.Nodup := keys_properties distinct ▸ distinct
  have entries : (∀ k f, (schema c).properties.get? k = some f → P k f) ↔
      ∀ e ∈ (schema c).properties.entries, P e.1 e.2 := by
    simp only [← Table.mem_entries_iff keys, Prod.forall]
  rw [entries, schema, Table.ofList, Table.entries_insertAll]
  · simp only [Table.empty, List.nil_append, List.forall_mem_append, List.forall_mem_map, List.forall_mem_singleton,
      and_assoc]
  · simpa [slotKeys, Table.keys, Table.empty, Function.comp_def] using distinct

omit distinct in
theorem forall_required {P : String → Prop} :
    (∀ k ∈ (schema c).required, P k) ↔ ∀ a ∈ c.arguments, a.required → P (camelCase a.name) := by
  simp only [schema, List.forall_mem_map, List.mem_filter, and_imp]

variable (regular : Regular c)

include regular

omit distinct in
theorem Regular.keys_values : (slots c).values.map Slot.key = slotKeys c := by
  rw [Table.values, regular.entries_slots]
  simp [slotKeys, optionSlot, drySlot, Function.comp_def]

theorem Regular.validate_of_allows (allows : (schema c).Allows given)
    (carries : ∀ o ∈ c.options, ∀ v, Value.lookupText (camelCase o.name) given = some v → (optionType o).Carries v) :
    validate c given = .ok (checked c given) := by
  obtain ⟨known, required, typed⟩ := allows
  rw [forall_required] at required
  rw [forall_properties distinct] at typed
  obtain ⟨arguments, options, dry⟩ := typed
  refine regular.validate_eq_ok.2 ⟨(problems_eq_nil regular.storable).2 ⟨?_, ?_⟩, rfl⟩
  · rwa [regular.keys_values, ← keys_properties distinct]
  · refine regular.forall_slots.2 ⟨fun a ha => ?_, fun o ho => ?_, ?_⟩
    · exact ⟨_, fill_argumentSlot.2 ⟨required a ha, fun w there => .inl (arguments a ha w there), rfl⟩⟩
    · exact ⟨_, fill_ofType.2 ⟨fun w there => ⟨options o ho w there, carries o ho w there⟩, rfl⟩⟩
    · exact ⟨_, (@fill_ofType _ _ _ .boolean _).2 ⟨fun w there => ⟨dry w there, trivial⟩, rfl⟩⟩

omit distinct in
theorem Regular.entries_params (filled : ∀ s ∈ (slots c).values, ∃ v, fill given s = .ok v) :
    (params c (checked c given)).entries =
      c.arguments.map (fun a => (a.name, (Value.lookupText (camelCase a.name) given).getD .null)) ++
      c.options.map (fun o =>
        (o.name, ((Value.lookupText (camelCase o.name) given).map (optionType o).passed).getD o.fallback)) := by
  obtain ⟨arguments, options, -⟩ := regular.forall_slots.1 filled
  have argument : ∀ a ∈ c.arguments, ((checked c given).get? (slotName a.name)).getD .null =
      (Value.lookupText (camelCase a.name) given).getD .null := by
    intro a ha
    obtain ⟨v, full⟩ := arguments a ha
    rw [regular.get?_argument ha full, Option.getD_some]
    exact (fill_argumentSlot.1 full).2.2
  have option : ∀ o ∈ c.options, ((checked c given).get? (slotName o.name)).getD .null =
      ((Value.lookupText (camelCase o.name) given).map (optionType o).passed).getD o.fallback := by
    intro o ho
    obtain ⟨v, full⟩ := options o ho
    rw [regular.get?_option ho full, Option.getD_some]
    exact (fill_ofType.1 full).2
  -- names whose slots are told apart are told apart themselves
  have names : (c.arguments.map Argument.name ++ c.options.map Choice.name).Nodup := by
    have slots := (List.nodup_append.1 (List.nodup_append.1 regular.distinct).1).1
    refine List.Nodup.of_map slotName ?_
    simpa [Function.comp_def] using slots
  rw [params, Table.ofList, Table.entries_insertAll]
  · simp only [Table.empty, List.nil_append, List.map_append, List.map_map]
    refine congrArg₂ (· ++ ·) (List.map_congr_left fun a ha => ?_) (List.map_congr_left fun o ho => ?_)
    · exact Prod.ext rfl (argument a ha)
    · exact Prod.ext rfl (option o ho)
  · simpa [Table.keys, Table.empty, Function.comp_def] using names

end

def measured : Command where
  name := "make:scale"
  arguments := [{ name := "full-name" }, { name := "unit", required := false }]
  options := [{ name := "dry" }, { name := "step-count", takesValue := true, default := .int 3 }]
  handle _ := ([], .ok {})

def measuredParameters : List (Value × Value) :=
  [(.text "stepCount", .int 5), (.text "fullName", .text "Scale"), (.text "dryRun", .bool true)]

def alike : Command where
  name := "make:pair"
  options := [{ name := "a-b" }, { name := "a_b" }]
  handle _ := ([], .ok {})

theorem slots_alike : slots alike = ⟨[("a_b", ⟨"a_b", .ofType .boolean, some (.bool false)⟩), ("dry_run", drySlot)]⟩ := by
  have first : slotName "a-b" = "a_b" := by decide +kernel
  have second : slotName "a_b" = "a_b" := by decide +kernel
  have key : camelCase "a_b" = "a_b" := by decide +kernel
  simp [slots, alike, Table.ofList, Table.insertAll, Table.insert, Table.insertEntry, Table.empty, first, second, key,
    optionType, Choice.fallback, drySlot]

end PhpScaffold.Tool
