import PhpScaffold.CommandLine
import PhpScaffold.Proofs.CommandLine.Reading

namespace PhpScaffold.CommandLine

def flags (c : Command) : List Flag := [helpFlag, verboseFlag none] ++ c.options.map optionFlag ++ [dryRunFlag]

def grammar (c : Command) : Grammar where
  program := program ++ " " ++ c.name
  flags := flags c
  positionals := c.arguments.map fun a => { name := a.name, arity := .one }

def isUnused (w : String) : Bool :=
  match configGrammar.mark w with
  | .ok .unknown | .ok .word => true
  | _ => false

def isPassed (w : String) : Bool := ((mainGrammar []).mark w).toBool

def ownKeys : List String := ["verbose", configFlag.key, logFlag.key, commandKey, handlerKey]

def keys (c : Command) : List String :=
  c.arguments.map Argument.name ++ c.options.map (fun o => optionKey o.name) ++ [dryRunFlag.key]

/-- A command whose arguments and options can be told apart on a command line, and from what is meant for others. -/
structure Offers (c : Command) : Prop where
  named : IsText c.name
  free : c.name ∉ [listName, serveName]
  made : ofCommand c = .ok (grammar c)
  clear : (grammar c).Clear
  distinct : (keys c ++ ownKeys).Nodup
  apart : ∀ f ∈ flags c, ∀ s ∈ f.spellings, isUnused s ∧ isPassed s

theorem offers_builtin : ∀ c ∈ Command.builtin, Offers c := by
  intro c hc
  have named : ∀ c ∈ Command.builtin, IsText c.name := by decide +kernel
  have free : ∀ c ∈ Command.builtin, c.name ∉ [listName, serveName] := by decide +kernel
  have distinct : ∀ c ∈ Command.builtin, (keys c ++ ownKeys).Nodup := by decide +kernel
  have apart : ∀ c ∈ Command.builtin, ∀ f ∈ flags c, ∀ s ∈ f.spellings, isUnused s ∧ isPassed s := by decide +kernel
  have spellings : ∀ c ∈ Command.builtin, ((grammar c).flags.flatMap Flag.spellings).Nodup := by decide +kernel
  have dashed : ∀ c ∈ Command.builtin, ∀ f ∈ (grammar c).flags, ∀ s ∈ f.spellings,
      s.toList.head? = some '-' ∧ s ≠ "--" := by decide +kernel
  have made : ofCommand c = .ok (grammar c) := by
    obtain rfl | rfl | rfl | rfl : c = _ ∨ c = _ ∨ c = _ ∨ c = _ := by simpa [Command.builtin] using hc
    all_goals rfl
  exact ⟨named c hc, free c hc, made, ⟨spellings c hc, dashed c hc, by simp [grammar]⟩, distinct c hc, apart c hc⟩

theorem Item.Fits.word_cases {g : Grammar} {i : Item} (h : i.Fits g) :
    ∀ w ∈ i.words, IsText w ∨ ∃ f ∈ g.flags, w ∈ f.spellings := by
  cases h with
  | text value => exact List.forall_mem_singleton.2 (.inl value)
  | switch known spelled => exact List.forall_mem_singleton.2 (.inr ⟨_, known, spelled⟩)
  | setting known spelled _ value =>
    exact List.forall_mem_cons.2 ⟨.inr ⟨_, known, spelled⟩, List.forall_mem_singleton.2 (.inl value)⟩

theorem Grammar.exists_marks {g : Grammar} {P : Mark → Prop} {ws : List String}
    (each : ∀ w ∈ ws, w ≠ "--" ∧ ∃ m, g.mark w = .ok m ∧ P m) :
    ∃ es, g.marks ws = .ok es ∧ es.map Prod.fst = ws ∧ ∀ e ∈ es, P e.2 := by
  induction ws with
  | nil => exact ⟨[], rfl, rfl, by simp⟩
  | cons w r ih =>
    obtain ⟨⟨other, m, marked, held⟩, rest⟩ := List.forall_mem_cons.1 each
    obtain ⟨es, later, words, all⟩ := ih rest
    exact ⟨(w, m) :: es, by rw [marks_cons marked other, later]; rfl, by rw [List.map_cons, words],
      List.forall_mem_cons.2 ⟨held, all⟩⟩

section

variable {c : Command} {items : List Item} (offers : Offers c) (fits : ∀ i ∈ items, i.Fits (grammar c))

include offers fits

theorem Offers.word_cases : ∀ w ∈ items.flatMap Item.words, w ≠ "--" ∧ (IsText w ∨ isUnused w ∧ isPassed w) := by
  intro w hw
  obtain ⟨i, hi, inside⟩ := List.mem_flatMap.1 hw
  obtain text | ⟨f, known, spelled⟩ := (fits i hi).word_cases w inside
  · exact ⟨text.ne_dashes, .inl text⟩
  · exact ⟨(offers.clear.dashed f known w spelled).2, .inr (offers.apart f known w spelled)⟩

theorem Offers.exists_marks_unused : ∃ es, configGrammar.marks (items.flatMap Item.words) = .ok es ∧
    ∀ e ∈ es, e.2 = .word ∨ e.2 = .unknown := by
  obtain ⟨es, marked, -, all⟩ := Grammar.exists_marks (g := configGrammar) (P := fun m => m = .word ∨ m = .unknown)
    fun w hw => by
      obtain ⟨other, text | ⟨unused, -⟩⟩ := offers.word_cases fits w hw
      · exact ⟨other, .word, Grammar.mark_text text, .inl rfl⟩
      · refine ⟨other, ?_⟩
        unfold isUnused at unused
        split at unused
        · exact ⟨.unknown, ‹_›, .inr rfl⟩
        · exact ⟨.word, ‹_›, .inl rfl⟩
        · cases unused
  exact ⟨es, marked, all⟩

theorem Offers.exists_marks_passed (gs : Grammars) : ∃ es, (mainGrammar gs).marks (items.flatMap Item.words) = .ok es ∧
    es.map Prod.fst = items.flatMap Item.words := by
  obtain ⟨es, marked, words, -⟩ := Grammar.exists_marks (g := mainGrammar gs) (P := fun _ => True)
    fun w hw => by
      obtain ⟨other, text | ⟨-, passed⟩⟩ := offers.word_cases fits w hw
      · exact ⟨other, .word, Grammar.mark_text text, trivial⟩
      · refine ⟨other, ?_⟩
        change ((mainGrammar gs).mark w).toBool = true at passed
        cases marked : (mainGrammar gs).mark w with
        | error why =>
          rw [marked] at passed
          cases passed
        | ok m => exact ⟨m, rfl, trivial⟩
  exact ⟨es, marked, words⟩

end

namespace Reading

variable {g : Grammar} {s : Reading} {p : Positional} {name : String} {r : List (String × Mark)}

theorem finish_done (left : s.left = []) : s.finish r = .ok { s with extras := s.extras ++ r.map Prod.fst } := by
  simp only [finish, takePositionals_done left, Except.ok_bind, left]
  rfl

theorem run_unused (left : s.left = []) (unused : ∀ e ∈ r, e.2 = .word ∨ e.2 = .unknown) :
    ∃ s', s.run g r = .ok s' ∧ s'.values = s.values := by
  fun_induction run g s r with
  | case1 s r flagless => exact ⟨_, finish_done left, rfl⟩
  | case2 s flags => exact absurd rfl flags
  | case3 s w r flags ih => exact ih left fun e he => unused e (List.mem_cons_of_mem _ he)
  | case4 s w x r flags ih => exact absurd (unused (w, .flag x) List.mem_cons_self) (by simp)
  | case5 s e r _ _ _ skipped =>
    rw [takePositionals_done left]
    exact skipped s left fun f hf => unused f (List.mem_cons_of_mem e ((List.dropWhile_sublist _).subset hf))

section

variable {names : List String} (left : s.left = [p]) (command : p.arity = .command names)

include left command

theorem takePositionals_command : s.takePositionals ((name, .word) :: r) =
    ({ s with left := [] }.takePositional p (name :: r.map Prod.fst)).map (·, r.length + 1) := by
  have shared : shares (s.left.map Positional.arity) (((name, Mark.word) :: r).map Prod.snd) = [r.length + 1] := by
    rw [left, List.map_singleton, command]
    simp [shares, share?, Arity.lengths, List.range_succ]
  rw [takePositionals, shared, takePositionals.go, left]
  rw [List.take_of_length_le (by simp)]
  cases { s with left := [] }.takePositional p (((name, Mark.word) :: r).map Prod.fst) <;> rfl

theorem run_command :
    s.run g ((name, .word) :: r) = { s with left := [] }.takePositional p (name :: r.map Prod.fst) := by
  have taken : s.takePositionals ((name, .word) :: r) = _ := takePositionals_command left command
  cases filled : { s with left := [] }.takePositional p (name :: r.map Prod.fst) with
  | error stop =>
    rw [filled] at taken
    cases flags : r.any isFlag with
    | false =>
      rw [run_flagless (show ((name, Mark.word) :: r).any isFlag = false from flags), finish, taken]
      rfl
    | true =>
      rw [run.eq_def, show ((name, Mark.word) :: r).any isFlag = true from flags]
      change (s.takePositionals ((name, .word) :: r) >>= _) = _
      rw [taken]
      rfl
  | ok q =>
    have done : q.left = [] := by
      simp only [takePositional, command] at filled
      split at filled <;> cases filled
      rfl
    rw [filled] at taken
    cases flags : r.any isFlag with
    | false =>
      rw [run_flagless (show ((name, Mark.word) :: r).any isFlag = false from flags), finish, taken]
      obtain ⟨values, none, command, extras⟩ := q
      obtain rfl : none = [] := done
      simp [Except.map, List.drop_eq_nil_of_le]
    | true =>
      rw [run.eq_def, show ((name, Mark.word) :: r).any isFlag = true from flags]
      change (s.takePositionals ((name, .word) :: r) >>= _) = _
      rw [taken]
      change run g q (r.drop r.length) = _
      rw [List.drop_length, run_flagless rfl, finish_done done]
      simp

end

end Reading

def line (dir : String) (c : Command) (items : List Item) : List String :=
  ["-c", dir, c.name] ++ items.flatMap Item.words

section

variable {c : Command} {items : List Item} {dir : String}

theorem marks_line {g : Grammar} (known : g.flag? "-c" = some configFlag) (place : IsText dir) (named : IsText c.name)
    {es : List (String × Mark)} (marked : g.marks (items.flatMap Item.words) = .ok es) :
    g.marks (line dir c items) =
      .ok (("-c", .flag ⟨configFlag, "-c", none⟩) :: (dir, .word) :: (c.name, .word) :: es) := by
  have front : g.mark "-c" = .ok (.flag ⟨configFlag, "-c", none⟩) := Grammar.mark_flag (by decide) known
  rw [line, List.cons_append, List.cons_append, List.cons_append, List.nil_append,
    Grammar.marks_cons front (by decide), Grammar.marks_cons (Grammar.mark_text place) place.ne_dashes,
    Grammar.marks_cons (Grammar.mark_text named) named.ne_dashes, marked]
  rfl

variable (offers : Offers c) (fits : ∀ i ∈ items, i.Fits (grammar c)) (place : IsText dir)

include offers fits place

theorem Offers.read_config : ∃ r, configGrammar.read (line dir c items) = .ok r ∧
    r.values.get? configFlag.key = some (.text dir) := by
  obtain ⟨es, marked, unused⟩ := offers.exists_marks_unused fits
  rw [Grammar.read, marks_line rfl place offers.named marked]
  change ∃ r, Reading.run configGrammar _ _ = _ ∧ _
  rw [Reading.run_setting rfl place]
  obtain ⟨r, done, values⟩ := Reading.run_unused (g := configGrammar) (r := (c.name, .word) :: es)
    (s := Reading.put { values := configGrammar.defaults, left := [] } configFlag.key (.text dir)) rfl
    (List.forall_mem_cons.2 ⟨.inl rfl, unused⟩)
  exact ⟨r, done, by rw [values]; rfl⟩

theorem Offers.read_main {gs : Grammars} (known : c.name ∈ gs.map Prod.fst) :
    (mainGrammar gs).read (line dir c items) = .ok {
      values := ((mainGrammar gs).defaults.insert configFlag.key (.text dir)).insert commandKey (.text c.name)
      left := []
      command := some (c.name :: items.flatMap Item.words) } := by
  obtain ⟨es, marked, words⟩ := offers.exists_marks_passed fits gs
  rw [Grammar.read, marks_line rfl place offers.named marked]
  change Reading.run (mainGrammar gs) _ _ = _
  rw [Reading.run_setting rfl place, Reading.run_command rfl rfl, words]
  exact if_pos known

theorem Offers.read_main_unknown {gs : Grammars} (unknown : c.name ∉ gs.map Prod.fst) :
    (mainGrammar gs).read (line dir c items) =
      .error (.refused (.notChoice commandKey c.name (gs.map Prod.fst))) := by
  obtain ⟨es, marked, words⟩ := offers.exists_marks_passed fits gs
  rw [Grammar.read, marks_line rfl place offers.named marked]
  change Reading.run (mainGrammar gs) _ _ = _
  rw [Reading.run_setting rfl place, Reading.run_command rfl rfl]
  exact if_neg unknown

end

end PhpScaffold.CommandLine
