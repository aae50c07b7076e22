import PhpScaffold.Proofs.CommandLine.Interface

namespace PhpScaffold.CommandLine

variable {c : Command} {items : List Item} {dir : String} {gs : Grammars}

def chosen (items : List Item) (o : Choice) : Value := (Item.last? items (optionKey o.name)).getD o.fallback

def asked (items : List Item) (key : String) : Bool := (Item.last? items key).isSome

def params (c : Command) (items : List Item) : Params :=
  .ofList (c.arguments.zipWith (fun a w => (a.name, .text w)) (Item.texts items) ++
    c.options.map fun o => (o.name, chosen items o))

def settled (c : Command) (items : List Item) : Table Value :=
  (grammar c).defaults.insertAll (Item.entries (grammar c).positionals items)

def invocation (gs : Grammars) (dir : String) (c : Command) (items : List Item) : Invocation where
  command := c.name
  values := (((mainGrammar gs).defaults.insert configFlag.key (.text dir)).insert commandKey (.text c.name)).insertAll
    (settled c items).entries

theorem length_positionals (c : Command) : (grammar c).positionals.length = c.arguments.length :=
  List.length_map _

theorem Offers.read_line (offers : Offers c) (fits : ∀ i ∈ items, i.Fits (grammar c))
    (enough : (Item.texts items).length = c.arguments.length) (place : IsText dir)
    (known : gs.lookup c.name = some (grammar c)) :
    Invocation.read gs (line dir c items) = .ok (invocation gs dir c items) := by
  have there : c.name ∈ gs.map Prod.fst := by
    obtain ⟨before, after, rfl, -⟩ := List.lookup_eq_some_iff.1 known
    simp
  have inner := Grammar.read_items offers.clear fits (enough.trans (length_positionals c).symm)
  rw [Invocation.read, offers.read_main fits place there]
  simp only [Except.mapError, Except.ok_bind, known, inner]
  rfl

theorem get?_invocation (key : String) : (invocation gs dir c items).values.get? key =
    ((settled c items).get? key).or
      ((((mainGrammar gs).defaults.insert configFlag.key (.text dir)).insert commandKey (.text c.name)).get? key) :=
  Table.get?_insertAll _ (Table.nodup_keys_insertAll (Grammar.nodup_keys_defaults _) _) key

theorem get?_settled {key : String} (other : key ∉ c.arguments.map Argument.name) :
    (settled c items).get? key = (Item.last? items key).or ((grammar c).defaultEntries.lookup key) := by
  rw [settled, Item.get?_entries, Grammar.get?_defaults]
  intro p hp same
  obtain ⟨a, ha, rfl⟩ := List.mem_map.1 hp
  exact other (List.mem_map.2 ⟨a, ha, same⟩)

theorem defaultEntries_grammar (c : Command) : (grammar c).defaultEntries =
    c.arguments.map (fun a => (a.name, .null)) ++ c.options.map (fun o => (optionKey o.name, o.fallback)) ++
      [(dryRunFlag.key, .bool false)] := by
  have options : (c.options.map optionFlag).filterMap (fun f => f.default.map fun d => (f.key, d)) =
      c.options.map fun o => (optionKey o.name, o.fallback) := by
    rw [List.filterMap_map, ← List.filterMap_eq_map]
    rfl
  simp [Grammar.defaultEntries, grammar, flags, options, helpFlag, verboseFlag, dryRunFlag]

theorem keys_defaultEntries (c : Command) : (grammar c).defaultEntries.map Prod.fst = keys c := by
  simp [defaultEntries_grammar, keys, Function.comp_def]

def Suits (o : Choice) (v : Value) : Prop := if o.takesValue then ∃ s, v = .text s else v = .bool true

theorem flag_cases {f : Flag} {spelling : String} {value : Option String} (fits : ∀ i ∈ items, i.Fits (grammar c))
    (h : .flag f spelling value ∈ items) :
    (f = verboseFlag none ∧ value = none) ∨ (∃ o ∈ c.options, f = optionFlag o ∧ Suits o (Item.stored value)) ∨
      (f = dryRunFlag ∧ value = none) := by
  have known : f ∈ flags c ∧ ((f.intake = .nothing ∧ value = none) ∨ ∃ v, f.intake = .text ∧ value = some v) := by
    cases fits _ h with
    | switch known _ takes => exact ⟨known, .inl ⟨takes, rfl⟩⟩
    | setting known _ takes => exact ⟨known, .inr ⟨_, takes, rfl⟩⟩
  simp only [flags, List.mem_append, List.mem_cons, List.mem_map, List.not_mem_nil, or_false] at known
  obtain ⟨((rfl | rfl) | ⟨o, ho, rfl⟩) | rfl, takes⟩ := known
  · obtain ⟨takes, -⟩ | ⟨-, takes, -⟩ := takes <;> cases takes
  · obtain ⟨-, none⟩ | ⟨-, takes, -⟩ := takes
    · exact .inl ⟨rfl, none⟩
    · cases takes
  · refine .inr (.inl ⟨o, ho, rfl, ?_⟩)
    unfold Suits
    cases valued : o.takesValue with
    | false =>
      obtain ⟨-, rfl⟩ | ⟨v, takes, -⟩ := takes
      · rfl
      · simp [optionFlag, valued] at takes
    | true =>
      obtain ⟨takes, -⟩ | ⟨v, -, rfl⟩ := takes
      · simp [optionFlag, valued] at takes
      · exact ⟨v, rfl⟩
  · obtain ⟨-, none⟩ | ⟨-, takes, -⟩ := takes
    · exact .inr (.inr ⟨rfl, none⟩)
    · cases takes

theorem lacks {key : String} (fits : ∀ i ∈ items, i.Fits (grammar c))
    (other : ∀ o ∈ c.options, optionKey o.name ≠ key) (verbose : "verbose" ≠ key) (dry : dryRunFlag.key ≠ key) :
    Item.Lacks items key := by
  intro f spelling value hf same
  obtain ⟨rfl, -⟩ | ⟨o, ho, rfl, -⟩ | ⟨rfl, -⟩ := flag_cases fits hf
  · exact verbose same
  · exact other o ho same
  · exact dry same

theorem switch {key : String} (fits : ∀ i ∈ items, i.Fits (grammar c))
    (other : ∀ o ∈ c.options, optionKey o.name ≠ key) {v : Value} (stored : Item.last? items key = some v) :
    v = .bool true := by
  obtain ⟨f, spelling, value, hf, same, rfl⟩ := Item.exists_of_last? stored
  obtain ⟨-, rfl⟩ | ⟨o, ho, rfl, -⟩ | ⟨-, rfl⟩ := flag_cases fits hf
  · rfl
  · exact absurd same (other o ho)
  · rfl

section

variable (offers : Offers c) (fits : ∀ i ∈ items, i.Fits (grammar c))

include offers

theorem Offers.nodup_keys : (keys c).Nodup := (List.nodup_append.1 offers.distinct).1

theorem Offers.key_not_mem {key : String} (own : key ∈ ownKeys) : key ∉ keys c := fun inside =>
  (List.nodup_append.1 offers.distinct).2.2 key inside key own rfl

theorem Offers.verbose_not_mem : "verbose" ∉ keys c := offers.key_not_mem List.mem_cons_self

theorem Offers.argument_ne {a : Argument} (ha : a ∈ c.arguments) {key : String}
    (other : key ∈ c.options.map (fun o => optionKey o.name) ++ [dryRunFlag.key]) : a.name ≠ key := by
  have distinct := offers.nodup_keys
  rw [keys, List.append_assoc] at distinct
  exact (List.nodup_append.1 distinct).2.2 _ (List.mem_map_of_mem ha) _ other

theorem Offers.option_ne {o : Choice} (ho : o ∈ c.options) : optionKey o.name ≠ dryRunFlag.key :=
  (List.nodup_append.1 offers.nodup_keys).2.2 _
    (List.mem_append_right _ (List.mem_map_of_mem (f := fun o => optionKey o.name) ho)) _ List.mem_cons_self

theorem Offers.option_inj {o o' : Choice} (ho : o ∈ c.options) (ho' : o' ∈ c.options)
    (same : optionKey o.name = optionKey o'.name) : o = o' := by
  have distinct := offers.nodup_keys
  rw [keys, List.append_assoc] at distinct
  have options := (List.nodup_append.1 (List.nodup_append.1 distinct).2.1).1
  exact List.inj_on_of_nodup_map options ho ho' same

theorem Offers.lookup_defaultEntries {key : String} {v : Value} (inside : (key, v) ∈ (grammar c).defaultEntries) :
    (grammar c).defaultEntries.lookup key = some v := by
  have distinct : (⟨(grammar c).defaultEntries⟩ : Table Value).keys.Nodup := by
    rw [Table.keys, keys_defaultEntries]
    exact offers.nodup_keys
  exact (Table.mem_entries_iff distinct).1 inside

theorem Offers.get?_option {o : Choice} (ho : o ∈ c.options) :
    (invocation gs dir c items).values.get? (optionKey o.name) = some (chosen items o) := by
  have inside : (optionKey o.name, o.fallback) ∈ (grammar c).defaultEntries := by
    rw [defaultEntries_grammar]
    exact List.mem_append_left _ (List.mem_append_right _
      (List.mem_map_of_mem (f := fun o => (optionKey o.name, o.fallback)) ho))
  rw [get?_invocation, get?_settled, offers.lookup_defaultEntries inside, chosen]
  · cases Item.last? items (optionKey o.name) <;> rfl
  · rintro same
    obtain ⟨a, ha, same⟩ := List.mem_map.1 same
    exact offers.argument_ne ha (List.mem_append_left _ (List.mem_map_of_mem (f := fun o => optionKey o.name) ho)) same

theorem Offers.get?_own {key : String} (own : key ∈ ownKeys) : (invocation gs dir c items).values.get? key =
    (Item.last? items key).or
      ((((mainGrammar gs).defaults.insert configFlag.key (.text dir)).insert commandKey (.text c.name)).get? key) := by
  have new := offers.key_not_mem own
  have absent : (grammar c).defaultEntries.lookup key = none := by
    rw [List.lookup_eq_none_iff]
    intro e he
    rw [bne_iff_ne]
    rintro rfl
    refine new ?_
    rw [← keys_defaultEntries]
    exact List.mem_map_of_mem he
  rw [get?_invocation, get?_settled, absent, Option.or_none]
  exact fun same => new (List.mem_append_left _ (List.mem_append_left _ same))

include fits

theorem Offers.lacks_argument {a : Argument} (ha : a ∈ c.arguments) : Item.Lacks items a.name := by
  refine lacks fits (fun o ho same => ?_) (fun same => ?_) (fun same => ?_)
  · exact offers.argument_ne ha (List.mem_append_left _ (List.mem_map_of_mem (f := fun o => optionKey o.name) ho))
      same.symm
  · exact offers.verbose_not_mem (same ▸ by simp [keys, List.mem_map_of_mem ha])
  · exact offers.argument_ne ha (List.mem_append_right _ List.mem_cons_self) same.symm

theorem Offers.lacks_own {key : String} (own : key ∈ ownKeys) (other : "verbose" ≠ key) : Item.Lacks items key := by
  refine lacks fits (fun o ho same => offers.key_not_mem own ?_) other fun same => offers.key_not_mem own ?_
  · rw [← same]
    exact List.mem_append_left _ (List.mem_append_right _ (List.mem_map_of_mem (f := fun o => optionKey o.name) ho))
  · rw [← same]
    exact List.mem_append_right _ List.mem_cons_self

theorem Offers.suits {o : Choice} (ho : o ∈ c.options) {v : Value}
    (stored : Item.last? items (optionKey o.name) = some v) : Suits o v := by
  obtain ⟨f, spelling, value, hf, same, rfl⟩ := Item.exists_of_last? stored
  obtain ⟨rfl, -⟩ | ⟨o', ho', rfl, suits⟩ | ⟨rfl, -⟩ := flag_cases fits hf
  · refine absurd ?_ (offers.verbose_not_mem)
    rw [show "verbose" = optionKey o.name from same]
    exact List.mem_append_left _ (List.mem_append_right _ (List.mem_map_of_mem (f := fun o => optionKey o.name) ho))
  · rwa [offers.option_inj ho ho' same.symm]
  · exact absurd same.symm (offers.option_ne ho)

theorem Offers.get?_argument (enough : (Item.texts items).length = c.arguments.length) :
    c.arguments.Forall₂ (fun a w => (invocation gs dir c items).values.get? a.name = some (.text w))
      (Item.texts items) := by
  have distinct : ((grammar c).positionals.map Positional.name).Nodup := by
    have keys := offers.nodup_keys
    rw [CommandLine.keys, List.append_assoc] at keys
    simpa [grammar, Function.comp_def] using (List.nodup_append.1 keys).1
  have lacks : ∀ p ∈ (grammar c).positionals, Item.Lacks items p.name :=
    List.forall_mem_map.2 fun a ha => offers.lacks_argument fits ha
  have found := Item.get?_entries_text distinct lacks (enough.trans (length_positionals c).symm) (grammar c).defaults
  have found := List.forall₂_map_left_iff.1 found
  refine found.imp fun a w stored => ?_
  rw [get?_invocation, show (settled c items).get? a.name = some (.text w) from stored]
  rfl

theorem Offers.get?_dryRun : (invocation gs dir c items).values.get? dryRunFlag.key =
    some (.bool (asked items dryRunFlag.key)) := by
  have inside : (dryRunFlag.key, .bool false) ∈ (grammar c).defaultEntries := by
    rw [defaultEntries_grammar]
    exact List.mem_append_right _ List.mem_cons_self
  rw [get?_invocation, get?_settled, offers.lookup_defaultEntries inside, asked]
  · cases stored : Item.last? items dryRunFlag.key with
    | none => rfl
    | some v => rw [switch fits (fun o ho => offers.option_ne ho) stored]; rfl
  · rintro same
    obtain ⟨a, ha, same⟩ := List.mem_map.1 same
    exact offers.argument_ne ha (List.mem_append_right _ List.mem_cons_self) same

theorem Offers.get?_verbose : (invocation gs dir c items).values.get? "verbose" =
    some (.bool (asked items "verbose")) := by
  rw [offers.get?_own (by simp [ownKeys]), asked]
  cases stored : Item.last? items "verbose" with
  | none => rfl
  | some v =>
    rw [switch fits (fun o ho same => ?_) stored]
    · rfl
    · refine offers.verbose_not_mem (same ▸ ?_)
      exact List.mem_append_left _ (List.mem_append_right _ (List.mem_map_of_mem (f := fun o => optionKey o.name) ho))

theorem Offers.get?_log : (invocation gs dir c items).values.get? logFlag.key = some .null := by
  have lacks := @Offers.lacks_own _ _ offers fits logFlag.key (by simp [ownKeys]) (by decide)
  rw [offers.get?_own (by simp [ownKeys]), Item.last?_eq_none lacks]
  rfl

theorem Offers.get?_command : (invocation gs dir c items).values.get? commandKey = some (.text c.name) := by
  have lacks := @Offers.lacks_own _ _ offers fits commandKey (by simp [ownKeys]) (by decide)
  rw [offers.get?_own (by simp [ownKeys]), Item.last?_eq_none lacks, Table.get?_insert, if_pos rfl]
  rfl

theorem Offers.params_invocation (enough : (Item.texts items).length = c.arguments.length) :
    (invocation gs dir c items).params c = params c items := by
  have arguments : c.arguments.Forall₂ (fun a w => (invocation gs dir c items).values.get? a.name = some (.text w))
      (Item.texts items) := offers.get?_argument fits enough
  have texts := arguments.map_eq_zipWith (g := fun a w => (a.name, .text w))
    (f := fun a => (a.name, ((invocation gs dir c items).values.get? a.name).getD .null))
    fun a _ w stored => by rw [stored]; rfl
  have options : c.options.map (fun o =>
      (o.name, ((invocation gs dir c items).values.get? (optionKey o.name)).getD .null)) =
      c.options.map fun o => (o.name, chosen items o) :=
    List.map_congr_left fun o ho => by rw [offers.get?_option ho]; rfl
  rw [Invocation.params, params, ← texts, ← options]

end

end PhpScaffold.CommandLine
