import PhpScaffold.Proofs.CommandLine.Params
import PhpScaffold.Proofs.Tool.Slot

namespace PhpScaffold.Tool

open CommandLine (Item optionKey chosen asked Suits Offers)

structure Fits (c : Command) : Prop where
  required : ∀ a ∈ c.arguments, a.required
  textual : ∀ o ∈ c.options, o.takesValue → o.default.text?.isSome
  distinct : (slotNames c ++ ownNames).Nodup
  faultless : (slotFault? (slots c)).isNone
  storable : ∀ k ∈ (slots c).values.map Slot.key, isStorable (.text k)

theorem fits_builtin : ∀ c ∈ Command.builtin, Fits c := by
  have required : ∀ c ∈ Command.builtin, ∀ a ∈ c.arguments, a.required := by decide +kernel
  have textual : ∀ c ∈ Command.builtin, ∀ o ∈ c.options, o.takesValue → o.default.text?.isSome := by decide +kernel
  have distinct : ∀ c ∈ Command.builtin, (slotNames c ++ ownNames).Nodup := by decide +kernel
  have faultless : ∀ c ∈ Command.builtin, (slotFault? (slots c)).isNone := by decide +kernel
  have storable : ∀ c ∈ Command.builtin, ∀ k ∈ (slots c).values.map Slot.key, isStorable (.text k) := by
    decide +kernel
  exact fun c hc => ⟨required c hc, textual c hc, distinct c hc, faultless c hc, storable c hc⟩

/-- A value of a request for one that a command line stored: the same, or the default of one that was left out. -/
def Mirrors (given stored : Option Value) (fallback : Value) : Prop :=
  given = stored ∨ (stored = none ∧ given = some fallback)

structure Tells (c : Command) (items : List Item) (given : List (Value × Value)) : Prop where
  arguments : c.arguments.Forall₂
    (fun a w => Value.lookupText (camelCase a.name) given = some (.text w)) (Item.texts items)
  options : ∀ o ∈ c.options,
    Mirrors (Value.lookupText (camelCase o.name) given) (Item.last? items (optionKey o.name)) o.fallback
  dryRun : Mirrors (Value.lookupText dryRunKey given) (Item.last? items CommandLine.dryRunFlag.key) (.bool false)
  keys : ∀ e ∈ given, ∃ k ∈ (slots c).values.map Slot.key, e.1 = .text k

section

variable {given : List (Value × Value)} {key : String}

theorem fill_mirrors {expected : Expected} {stored : Option Value} {fallback : Value}
    (mirrors : Mirrors (Value.lookupText key given) stored fallback)
    (accepted : ∀ v, v = fallback ∨ stored = some v → expected.accept? v = some v) :
    fill given ⟨key, expected, some fallback⟩ = .ok (stored.getD fallback) := by
  have taken {v : Value} (there : Value.lookupText key given = some v) (known : v = fallback ∨ stored = some v) :
      fill given ⟨key, expected, some fallback⟩ = .ok v := by
    simp only [fill, there, accepted v known]
  obtain same | ⟨none, there⟩ := mirrors
  · cases stored with
    | none =>
      rw [fill, same]
      rfl
    | some v => exact taken same (.inr rfl)
  · rw [none]
    exact taken there (.inl rfl)

theorem accept?_option {o : Choice} (textual : o.takesValue → o.default.text?.isSome) {v : Value}
    (known : v = o.fallback ∨ Suits o v) : (Expected.ofType (optionType o)).accept? v = some v := by
  cases valued : o.takesValue with
  | false =>
    have type : optionType o = .boolean := by simp [optionType, valued]
    rw [type]
    obtain rfl | suits := known
    · simp [Choice.fallback, valued, Expected.ofType, Expected.accept?]
    · obtain rfl : v = .bool true := by simpa [Suits, valued] using suits
      rfl
  | true =>
    obtain ⟨s, default⟩ : ∃ s, o.default = .text s := by
      have text := textual valued
      cases default : o.default <;> first | exact ⟨_, rfl⟩ | (rw [default] at text; cases text)
    have type : optionType o = .string := by simp [optionType, valued, default]
    rw [type]
    obtain rfl | suits := known
    · simp [Choice.fallback, valued, default, Expected.ofType, Expected.accept?]
    · obtain ⟨t, rfl⟩ : ∃ t, v = .text t := by simpa [Suits, valued] using suits
      rfl

end

section

variable {c : Command} {items : List Item} {given : List (Value × Value)} (fits : Fits c)

include fits

theorem Fits.regular : Regular c := ⟨fits.distinct, fits.faultless, fits.storable⟩

theorem Fits.fill_argument {a : Argument} {w : String} (ha : a ∈ c.arguments)
    (there : Value.lookupText (camelCase a.name) given = some (.text w)) :
    fill given (argumentSlot a) = .ok (.text w) := by
  rw [argumentSlot, if_pos (fits.required a ha), fill, there]
  rfl

variable (tells : Tells c items given) (offers : Offers c) (known : ∀ i ∈ items, i.Fits (CommandLine.grammar c))

include tells offers known

theorem Fits.fill_option {o : Choice} (ho : o ∈ c.options) :
    fill given (optionSlot o) = .ok (chosen items o) := by
  refine fill_mirrors (tells.options o ho) fun v stored => accept?_option (fits.textual o ho) ?_
  exact stored.imp_right (offers.suits known ho)

omit fits in
theorem fill_dryRun : fill given drySlot = .ok (.bool (asked items CommandLine.dryRunFlag.key)) := by
  have on {v : Value} (stored : Item.last? items CommandLine.dryRunFlag.key = some v) : v = .bool true :=
    CommandLine.switch known (fun o ho => offers.option_ne ho) stored
  rw [drySlot, fill_mirrors tells.dryRun, asked]
  · cases stored : Item.last? items CommandLine.dryRunFlag.key with
    | none => rfl
    | some v => rw [on stored]; rfl
  · rintro v (rfl | stored)
    · rfl
    · rw [on stored]
      rfl

theorem Fits.fill_slots : ∀ s ∈ (slots c).values, ∃ v, fill given s = .ok v := by
  refine fits.regular.forall_slots.2 ⟨fun a ha => ?_, fun o ho => ?_, ?_⟩
  · obtain ⟨w, -, given⟩ := tells.arguments.exists_of_mem ha
    exact ⟨_, fits.fill_argument ha given⟩
  · exact ⟨_, fits.fill_option tells offers known ho⟩
  · exact ⟨_, fill_dryRun tells offers known⟩

theorem Fits.validate_eq : validate c given = .ok (checked c given) := by
  refine fits.regular.validate_eq_ok.2 ⟨(problems_eq_nil fits.storable).2 ⟨tells.keys, ?_⟩, rfl⟩
  exact fits.fill_slots tells offers known

theorem Fits.params_checked : params c (checked c given) = CommandLine.params c items := by
  have argument (a : Argument) (ha : a ∈ c.arguments) (w : String)
      (there : Value.lookupText (camelCase a.name) given = some (.text w)) :
      (a.name, ((checked c given).get? (slotName a.name)).getD .null) = (a.name, .text w) := by
    rw [fits.regular.get?_argument ha (fits.fill_argument ha there)]
    rfl
  have option (o : Choice) (ho : o ∈ c.options) :
      (o.name, ((checked c given).get? (slotName o.name)).getD .null) = (o.name, chosen items o) := by
    rw [fits.regular.get?_option ho (fits.fill_option tells offers known ho)]
    rfl
  rw [params, CommandLine.params, List.map_append, List.map_map, List.map_map]
  exact congrArg Table.ofList
    (congrArg₂ (· ++ ·) (tells.arguments.map_eq_zipWith argument) (List.map_congr_left option))

theorem Fits.isDryRun_checked : isDryRun (checked c given) = asked items CommandLine.dryRunFlag.key := by
  rw [isDryRun, fits.regular.get?_dryRun (fill_dryRun tells offers known)]
  rfl

end

end PhpScaffold.Tool
