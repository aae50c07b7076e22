import PhpScaffold.Proofs.Service.Call

namespace PhpScaffold.Service

variable {plugins : List Plugin} {enabled : List String} {cs front rest : List Command} {c : Command}

def GoesBy (c : Command) (name : String) : Prop := c.name = name ∨ Tool.name c = name

def listedName? : Value → Option String
  | .dict es => (Value.lookupText "name" es).bind Value.text?
  | _ => none

@[simp] theorem listedName?_toValue (c : Command) : listedName? (Tool.toValue c) = some (Tool.name c) := by
  simp [Tool.toValue, listedName?, Value.lookupText, Value.lookup, Value.text?]

/-- Whether the name that a tool is listed under leads to its command, and the name of the command does too. -/
structure Led (cs : List Command) (c : Command) : Prop where
  listed : ∃ name, listedName? (Tool.toValue c) = some name ∧ find? cs name = some c
  named : find? cs c.name = some c

structure Apart (d c : Command) : Prop where
  listed : ¬ GoesBy d (Tool.name c)
  named : Tool.name d ≠ c.name

section

variable (distinct : (Command.names (front ++ c :: rest)).Nodup)

include distinct

theorem name_ne_of_before : ∀ d ∈ front, d.name ≠ c.name := by
  rw [Command.names, List.map_append, List.map_cons] at distinct
  exact fun d inside => (List.nodup_append.1 distinct).2.2 _ (List.mem_map_of_mem inside) _ List.mem_cons_self

theorem find?_eq_some_iff {name : String} (own : GoesBy c name) :
    find? (front ++ c :: rest) name = some c ↔ ∀ d ∈ front, ¬ GoesBy d name := by
  have here : (c :: rest).find? (fun d => d.name = name || Tool.name d = name) = some c :=
    List.find?_cons_of_pos (by simpa [GoesBy] using own)
  rw [find?, List.find?_append, here]
  cases hides : front.find? (fun d => d.name = name || Tool.name d = name) with
  | none => simpa [GoesBy] using hides
  | some d =>
    have inside := List.mem_of_find?_eq_some hides
    have goes : GoesBy d name := by simpa [GoesBy] using List.find?_some hides
    -- what is found first is another command, for no two have one name
    have other : d ≠ c := fun same => name_ne_of_before distinct d inside (congrArg Command.name same)
    rw [Option.some_or, Option.some.injEq]
    exact ⟨fun same => absurd same other, fun free => absurd goes (free d inside)⟩

theorem led_iff : Led (front ++ c :: rest) c ↔ ∀ d ∈ front, Apart d c := by
  constructor
  · rintro ⟨⟨name, lists, listed⟩, named⟩ d inside
    obtain rfl : Tool.name c = name := by simpa using lists
    refine ⟨(find?_eq_some_iff distinct (.inr rfl)).1 listed d inside, fun same => ?_⟩
    exact (find?_eq_some_iff distinct (.inl rfl)).1 named d inside (.inr same)
  · intro apart
    constructor
    case listed =>
      exact ⟨_, listedName?_toValue c,
        (find?_eq_some_iff distinct (.inr rfl)).2 fun d inside => (apart d inside).listed⟩
    case named =>
      exact (find?_eq_some_iff distinct (.inl rfl)).2 fun d inside =>
        not_or.2 ⟨name_ne_of_before distinct d inside, (apart d inside).named⟩

end

theorem apart_builtin : ∀ d ∈ Command.builtin, ∀ c ∈ Command.builtin, d.name ≠ c.name → Apart d c := by
  have apart : ∀ d ∈ Command.builtin, ∀ c ∈ Command.builtin, d.name ≠ c.name →
      (d.name ≠ Tool.name c ∧ Tool.name d ≠ Tool.name c) ∧ Tool.name d ≠ c.name := by
    decide +kernel
  exact fun d hd c hc other => ⟨not_or.2 (apart d hd c hc other).1, (apart d hd c hc other).2⟩

/-- What is listed is what is at hand, in the same order.  A tool is found by the name it is listed under and by that
of its command exactly when no tool before it goes by one of these names; the built-in ones always are. -/
theorem find?_tools (found : Command.discover plugins enabled = .ok cs) :
    (∀ t place cfg, Config.load t place = .ok cfg → cfg.commands = enabled →
      listing t place plugins = .ok (.list (cs.map Tool.toValue))) ∧
    (∀ front c rest, cs = front ++ c :: rest → (Led cs c ↔ ∀ d ∈ front, Apart d c)) ∧
    ∀ c ∈ cs, c ∈ Command.builtin → Led cs c := by
  have distinct := Command.nodup_names_discover found
  refine ⟨?_, ?_, ?_⟩
  · rintro t place cfg loaded rfl
    rw [listing, loaded, Except.ok_bind, found]
    rfl
  · rintro front c rest rfl
    exact led_iff distinct
  · intro c there own
    -- all that stands before a built-in command is built in
    obtain ⟨front, rest, rfl⟩ := List.append_of_mem there
    refine (led_iff distinct).2 fun d inside => ?_
    exact apart_builtin d (Command.mem_builtin_of_before found rfl own d inside) c own
      (name_ne_of_before distinct d inside)

def idle (name : String) : Command where
  name := name
  handle _ := ([], .ok {})

def idlePlugin (name : String) : Plugin := ⟨name, .ok (some (idle name))⟩

theorem find?_tools_made :
    Command.discover [idlePlugin "make:one", idlePlugin "make:two"] [] =
      .ok (Command.builtin ++ [idle "make:one", idle "make:two"]) ∧
    Led (Command.builtin ++ [idle "make:one", idle "make:two"]) (idle "make:two") := by
  have found : Command.discover [idlePlugin "make:one", idlePlugin "make:two"] [] =
      .ok (Command.builtin ++ [idle "make:one", idle "make:two"]) := rfl
  refine ⟨found, ((find?_tools found).2.1 (Command.builtin ++ [idle "make:one"]) (idle "make:two") [] (by simp)).2 ?_⟩
  have apart : ∀ d ∈ Command.builtin ++ [idle "make:one"],
      (d.name ≠ "phpgen_make_two" ∧ Tool.name d ≠ "phpgen_make_two") ∧ Tool.name d ≠ "make:two" := by
    decide +kernel
  have lists : Tool.name (idle "make:two") = "phpgen_make_two" := by decide +kernel
  exact fun d inside => ⟨lists ▸ not_or.2 (apart d inside).1, (apart d inside).2⟩

theorem find?_tools_alike : ∃ cs, Command.discover [idlePlugin "a:b", idlePlugin "a-b"] [] = .ok cs ∧
    idle "a-b" ∈ cs ∧ listedName? (Tool.toValue (idle "a-b")) = some "phpgen_a_b" ∧
    (find? cs "phpgen_a_b").map Command.name = some "a:b" ∧ ¬ Led cs (idle "a-b") := by
  have lists : Tool.name (idle "a-b") = "phpgen_a_b" := by decide +kernel
  have hidden : (find? (Command.builtin ++ [idle "a:b", idle "a-b"]) "phpgen_a_b").map Command.name = some "a:b" := by
    decide +kernel
  refine ⟨Command.builtin ++ [idle "a:b", idle "a-b"], rfl, by simp, lists ▸ listedName?_toValue _, hidden, ?_⟩
  rintro ⟨⟨name, listed, found⟩, -⟩
  obtain rfl : "phpgen_a_b" = name := by simpa [lists] using listed
  rw [found] at hidden
  exact absurd hidden (by decide)

end PhpScaffold.Service
