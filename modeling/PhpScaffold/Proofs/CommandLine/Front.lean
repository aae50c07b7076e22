import PhpScaffold.CommandLine
import PhpScaffold.Proofs.CommandLine.Settings
import Mathlib

/-! The place of the settings in front of the command.  There it may also stand in one word with switches, which only
the program's own grammar takes apart.  Where it does not, and nothing behind the command looks like it, both readings
of a command line find the same settings. -/

namespace PhpScaffold.CommandLine

variable {gs : Grammars} {next : Option String} {s q : Reading} {x : Sighting} {taken : List Taken} {used : Bool}

def behindSwitches (cs : List (List Char)) : Option (Option String) :=
  match cs.dropWhile (· = ['v']) with
  | ['c'] :: r => some (if r.isEmpty then none else some (.ofList r.flatten))
  | _ => none

namespace Sighting

def hidden? (x : Sighting) : Option (Option String) :=
  if x.spelling = "-v" then x.text.bind fun t => behindSwitches (Text.characters t) else none

def held? (x : Sighting) : Option (Option String) := x.place?.or x.hidden?

end Sighting

def named (gs : Grammars) (front : List String) : List (Option String) := (mainGrammar gs).sighted Sighting.held? front

namespace Grammar

variable {g : Grammar} {f : Flag} {spelling : String}

theorem Clusters.exists_cons {text : Option (List (List Char))} (h : Clusters g next f spelling text taken used) :
    ∃ t r, taken = (f, t) :: r := by
  cases h <;> exact ⟨_, _, rfl⟩

theorem Clusters.eq_of_text {text : Option (List (List Char))} (h : Clusters g next f spelling text taken used)
    (takes : f.intake = .text) :
    ∃ v, (text.map (.ofList ·.flatten)).or next = some v ∧ taken = [(f, some v)] ∧ used = text.isNone := by
  have value : f.takesValue = true := by simp [Flag.takesValue, takes]
  cases h with
  | inside => exact ⟨_, rfl, rfl, rfl⟩
  | behind _ there => exact ⟨_, there, rfl, rfl⟩
  | without other => simp [takes] at other
  | switch other => simp [value] at other
  | further other => simp [value] at other

theorem Clusters.eq_none {text : Option (List (List Char))} (h : Clusters g next f spelling text taken used)
    (value : f.takesValue = false) (long : spelling.toList[1]? = some '-') : text = none := by
  cases h with
  | inside other => simp [value] at other
  | behind | without | switch => rfl
  | further _ dashed => exact absurd long dashed

theorem Clusters.eq_of_nothing (h : Clusters g next f spelling none taken used) (takes : f.intake = .nothing) :
    taken = [(f, none)] ∧ used = false := by
  have value : f.takesValue = false := by simp [Flag.takesValue, takes]
  cases h with
  | behind other => simp [value] at other
  | without other => simp [takes] at other
  | switch => exact ⟨rfl, rfl⟩

end Grammar

namespace Reading

theorem exists_of_takeFlags (h : taken.foldlM takeFlag s = .ok q) : ∃ t, q = { s with values := t } := by
  induction taken generalizing s with
  | nil =>
    cases h
    exact ⟨_, rfl⟩
  | cons e r ih =>
    rw [List.foldlM_cons] at h
    obtain ⟨s', one, more⟩ := Except.bind_eq_ok.1 h
    obtain ⟨v, rfl⟩ := exists_put_of_takeFlag one
    obtain ⟨t, rfl⟩ := ih more
    exact ⟨t, rfl⟩

/-- What happens to the place of the settings when a flag is taken: a text that is held is stored, and one that is
missing is the next word. -/
structure Placed (held : Option (Option String)) (next : Option String) (used : Bool) (s q : Reading) : Prop where
  isSome : used = true → next.isSome = true
  ne_none : used = false → held ≠ some none
  stored : q.values.get? configFlag.key =
    (lastPlace? (held.map (·.or next)).toList).or (s.values.get? configFlag.key)

theorem placed_none (h : used = true → next.isSome = true)
    (same : q.values.get? configFlag.key = s.values.get? configFlag.key) : Placed none next used s q :=
  ⟨h, nofun, same⟩

theorem Placed.of_eq {held : Option (Option String)} {s' : Reading} (h : Placed held next used s' q)
    (same : s'.values.get? configFlag.key = s.values.get? configFlag.key) : Placed held next used s q :=
  ⟨h.isSome, h.ne_none, same ▸ h.stored⟩

theorem placed_some {text : Option String} {v : String} (there : text.or next = some v)
    (stored : q.values.get? configFlag.key = some (gathered [v])) : Placed (some text) next text.isNone s q where
  isSome h := by
    obtain rfl := Option.isNone_iff_eq_none.1 h
    exact Option.isSome_of_eq_some there
  ne_none h same := by
    cases same
    cases h
  stored := by
    rw [stored, Option.map_some, there]
    rfl

theorem placed_config (h : taken.foldlM takeFlag s = .ok q) {text : Option (List (List Char))} {spelling : String}
    (clusters : Grammar.Clusters (mainGrammar gs) next configFlag spelling text taken used) :
    Placed (some (text.map (.ofList ·.flatten))) next used s q := by
  obtain ⟨v, there, rfl, rfl⟩ := clusters.eq_of_text rfl
  cases h
  rw [← Option.isNone_map]
  exact placed_some there ((get?_put ..).trans (if_pos rfl))

theorem short_cases {c : List Char} {f : Flag} (single : ∀ r, c = '-' :: r → r = [])
    (found : (mainGrammar gs).flag? (.ofList ('-' :: c)) = some f) :
    (c = ['h'] ∧ f = helpFlag) ∨ (c = ['v'] ∧ f = verboseFlag (some (.bool false))) ∨ (c = ['c'] ∧ f = configFlag) := by
  have chars {t : String} (same : String.ofList ('-' :: c) = t) : '-' :: c = t.toList := by
    rw [← same, String.toList_ofList]
  obtain ⟨same, rfl⟩ | ⟨same, rfl⟩ | ⟨same, rfl⟩ | ⟨same, rfl⟩ | ⟨same, rfl⟩ | ⟨same, rfl⟩ | ⟨same, rfl⟩ :=
    spelling_cases (Grammar.mem_spellings_of_flag? found)
  case inl => exact .inl ⟨List.tail_eq_of_cons_eq (chars same), rfl⟩
  case inr.inr.inl => exact .inr (.inl ⟨List.tail_eq_of_cons_eq (chars same), rfl⟩)
  case inr.inr.inr.inr.inl => exact .inr (.inr ⟨List.tail_eq_of_cons_eq (chars same), rfl⟩)
  all_goals cases single _ (List.tail_eq_of_cons_eq (chars same))

theorem not_takeFlags_help {r : List Taken} {t : Option String} :
    ((helpFlag, t) :: r).foldlM takeFlag s ≠ .ok q := nofun

theorem get?_put_verbose (s : Reading) (d : Option Value) (v : Value) :
    (s.put (verboseFlag d).key v).values.get? configFlag.key = s.values.get? configFlag.key := by
  rw [get?_put]
  exact if_neg (show ("config" : String) ≠ "verbose" by decide)

theorem placed_switch {d : Option Value} {spelling : String}
    (clusters : Grammar.Clusters (mainGrammar gs) next (verboseFlag d) spelling none taken used)
    (h : taken.foldlM takeFlag s = .ok q) : Placed none next used s q := by
  obtain ⟨rfl, rfl⟩ := clusters.eq_of_nothing rfl
  cases h
  exact placed_none nofun (get?_put_verbose ..)

theorem placed_switches {cs : List (List Char)} (single : ∀ c ∈ cs, ∀ r, c = '-' :: r → r = [])
    (clusters : Grammar.Clusters (mainGrammar gs) next (verboseFlag (some (.bool false))) "-v" (some cs) taken used)
    (h : taken.foldlM takeFlag s = .ok q) : Placed (behindSwitches cs) next used s q := by
  induction cs generalizing s taken with
  | nil =>
    cases clusters with
    | inside takes => cases takes
  | cons c r ih =>
    obtain ⟨first, rest⟩ := List.forall_mem_cons.1 single
    cases clusters with
    | inside takes => cases takes
    | further _ _ found later =>
      obtain ⟨s', one, more⟩ := Except.bind_eq_ok.1 h
      cases one
      have same := get?_put_verbose s (some (.bool false)) (.bool true)
      obtain ⟨rfl, rfl⟩ | ⟨rfl, rfl⟩ | ⟨rfl, rfl⟩ := short_cases first found
      · obtain ⟨t, r, rfl⟩ := later.exists_cons
        exact absurd more not_takeFlags_help
      · refine Placed.of_eq ?_ same
        cases r with
        | nil => exact placed_switch later more
        | cons d r =>
          have shorter : behindSwitches (['v'] :: d :: r) = behindSwitches (d :: r) := rfl
          rw [shorter]
          exact ih rest later more
      · have placed := (placed_config more later).of_eq same
        cases r <;> exact placed

theorem placed_takeSighting {r : List (String × Mark)} (known : (x.spelling, x.flag) ∈ (mainGrammar gs).spellings)
    (h : takeSighting (mainGrammar gs) s x r = .ok (q, used)) : Placed x.held? (follower r) used s q := by
  obtain ⟨taken, clustered, folded⟩ := takeSighting_eq_ok.1 h
  have clusters := Grammar.clusters_of_cluster clustered
  obtain ⟨f, spelling, text⟩ := x
  have held_config : some ((text.map Text.characters).map (String.ofList ·.flatten)) =
      (⟨configFlag, spelling, text⟩ : Sighting).held? := by
    cases text with
    | none => rfl
    | some t => exact congrArg (some ∘ some ∘ String.ofList) (Text.flatten_characters t)
  obtain ⟨rfl, rfl⟩ | ⟨rfl, rfl⟩ | ⟨rfl, rfl⟩ | ⟨rfl, rfl⟩ | ⟨rfl, rfl⟩ | ⟨rfl, rfl⟩ | ⟨rfl, rfl⟩ :=
    spelling_cases known
  · obtain ⟨t, r, rfl⟩ := clusters.exists_cons
    exact absurd folded not_takeFlags_help
  · obtain ⟨t, r, rfl⟩ := clusters.exists_cons
    exact absurd folded not_takeFlags_help
  · cases text with
    | none => exact placed_switch clusters folded
    | some t =>
      refine placed_switches (fun c hc r same => ?_) clusters folded
      rw [same] at hc
      exact Text.eq_nil_of_mem_characters hc rfl
  · obtain rfl := Option.map_eq_none_iff.1 (clusters.eq_none rfl (show "--verbose".toList[1]? = some '-' by decide))
    exact placed_switch clusters folded
  · exact held_config ▸ placed_config folded clusters
  · exact held_config ▸ placed_config folded clusters
  · obtain ⟨v, there, rfl, rfl⟩ := clusters.eq_of_text rfl
    cases folded
    refine placed_none (fun h => ?_) ?_
    · obtain rfl := Option.map_eq_none_iff.1 (Option.isNone_iff_eq_none.1 h)
      exact Option.isSome_of_eq_some there
    · rw [get?_put]
      exact if_neg (show ("config" : String) ≠ "log_file" by decide)

section

variable {p : Positional} {names : List String} {es : List (String × Mark)}

theorem shares_command (names : List String) (ms : List Mark) :
    shares [.command names] ms = [] ∨ ms ≠ [] ∧ shares [.command names] ms = [ms.length] := by
  have lengths : (Arity.command names).lengths ms = [] ∨ ms ≠ [] ∧ (Arity.command names).lengths ms = [ms.length] := by
    cases ms with
    | nil => exact .inl rfl
    | cons m r =>
      unfold Arity.lengths
      dsimp only
      split <;> simp_all
  refine lengths.imp (fun none => ?_) fun all => ⟨all.1, ?_⟩
  · simp [shares, share?, List.range_succ, none]
  · simp [shares, share?, List.range_succ, all.2]

theorem takePositionals_cases (left : s.left = [p]) (command : p.arity = .command names) {n : Nat}
    (h : s.takePositionals es = .ok (q, n)) : (q = s ∧ n = 0) ∨
      n = es.length ∧ es ≠ [] ∧ q.left = [] ∧ q.command = some (es.map Prod.fst) ∧
        ∃ v, q.values = s.values.insert p.name v := by
  rw [takePositionals, left, List.map_singleton, command] at h
  obtain none | ⟨some, all⟩ := shares_command names (es.map Prod.snd)
  · rw [none] at h
    cases h
    exact .inl ⟨rfl, rfl⟩
  · rw [all, takePositionals.go, left] at h
    obtain ⟨s', one, more⟩ := Except.bind_eq_ok.1 h
    obtain ⟨e, r, rfl⟩ := List.exists_cons_of_ne_nil (List.map_eq_nil_iff.not.1 some)
    cases more
    rw [List.length_map, List.take_of_length_le (by simp)] at one
    simp only [takePositional, command, List.map_cons] at one
    split at one <;> cases one
    exact .inr ⟨by simp, List.cons_ne_nil _ _, rfl, rfl, _, rfl⟩

theorem exists_of_follower {v : String} (h : follower es = some v) : ∃ r, es = (v, .word) :: r := by
  unfold follower at h
  split at h <;> cases h
  exact ⟨_, rfl⟩

structure Front (s q : Reading) (front : List (String × Mark)) : Prop where
  plain : ∀ e ∈ front, e.2 ≠ .dashes
  there : none ∉ sightings Sighting.held? front
  stored : q.values.get? configFlag.key =
    (lastPlace? (sightings Sighting.held? front)).or (s.values.get? configFlag.key)

theorem front_nil {v : Value} (h : q.values = s.values.insert commandKey v) : Front s q [] where
  plain := nofun
  there := nofun
  stored := by
    rw [h, Table.get?_insert]
    exact if_neg (show ("config" : String) ≠ "subcommand" by decide)

theorem Front.cons {s' : Reading} {w : String} {r front rest : List (String × Mark)}
    (placed : Placed x.held? (follower r) used s s') (h : Front s' q front)
    (apart : r.drop (if used then 1 else 0) = front ++ rest) :
    ∃ front', r = front' ++ rest ∧ Front s q ((w, .flag x) :: front') := by
  have step {front' : List (String × Mark)} (plain : ∀ e ∈ front', e.2 ≠ .dashes)
      (later : sightings Sighting.held? front' = sightings Sighting.held? front)
      (text : x.held?.map (·.or (follower front')) = x.held?.map (·.or (follower r)))
      (given : x.held?.map (·.or (follower r)) ≠ some none) : Front s q ((w, .flag x) :: front') := by
    refine ⟨List.forall_mem_cons.2 ⟨by simp, plain⟩, ?_, ?_⟩
    · rw [sightings, later, text, List.mem_append]
      exact not_or.2 ⟨fun missing => given (Option.mem_toList.1 missing), h.there⟩
    · rw [sightings, later, text, lastPlace?_append, Option.or_assoc, h.stored, placed.stored]
  cases used with
  | true =>
    obtain ⟨v, next⟩ := Option.isSome_iff_exists.1 (placed.isSome rfl)
    obtain ⟨r', rfl⟩ := exists_of_follower next
    obtain rfl : r' = front ++ rest := apart
    exact ⟨(v, .word) :: front, rfl, step (List.forall_mem_cons.2 ⟨by simp, h.plain⟩) rfl rfl (by simp [follower])⟩
  | false =>
    obtain rfl : r = front ++ rest := apart
    have some := placed.ne_none rfl
    refine ⟨front, rfl, step h.plain rfl ?_ ?_⟩
    all_goals
      rcases held : x.held? with _ | _ | t
      · simp
      · exact absurd held some
      · simp

theorem run_front (left : s.left = (mainGrammar gs).positionals)
    (known : ∀ w x, (w, .flag x) ∈ es → (x.spelling, x.flag) ∈ (mainGrammar gs).spellings)
    (done : s.run (mainGrammar gs) es = .ok q) (all : q.extras = []) :
    ∃ front e rest, es = front ++ e :: rest ∧ isFlag e = false ∧ q.command = some ((e :: rest).map Prod.fst) ∧
      Front s q front := by
  have spent {s' : Reading} {r : List (String × Mark)} (done : s'.run (mainGrammar gs) r = .ok q)
      (left : s'.left = (mainGrammar gs).positionals)
      (known : ∀ w x, (w, .flag x) ∈ r → (x.spelling, x.flag) ∈ (mainGrammar gs).spellings) : s'.extras = [] := by
    have onward := onward_run (fun w x inside => Grammar.mem_flags_of_mem_spellings (known w x inside))
      (fun p hp => left ▸ hp) done
    exact List.prefix_nil.1 (all ▸ onward.extras)
  fun_induction run (mainGrammar gs) s es with
  | case1 s es flagless =>
    obtain ⟨⟨s', n⟩, filled, more⟩ := Except.bind_eq_ok.1 done
    obtain ⟨rfl, rfl⟩ | ⟨rfl, some, done, command, v, values⟩ := takePositionals_cases left rfl filled
    · dsimp only at more
      rw [left] at more
      cases more
    · dsimp only at more
      rw [done] at more
      cases more
      obtain ⟨e, r, rfl⟩ := List.exists_cons_of_ne_nil some
      exact ⟨[], e, r, rfl, by simp_all, command, front_nil values⟩
  | case2 s flags => exact absurd rfl flags
  | case3 s w r flags ih =>
    have extras := spent done left fun w x inside => known w x (List.mem_cons_of_mem _ inside)
    simp at extras
  | case4 s w x r flags ih =>
    obtain ⟨⟨s', used⟩, taken, more⟩ := Except.bind_eq_ok.1 done
    have placed := placed_takeSighting (known w x List.mem_cons_self) taken
    have still : s'.left = s.left := by
      obtain ⟨ts, -, folded⟩ := takeSighting_eq_ok.1 taken
      obtain ⟨t, rfl⟩ := exists_of_takeFlags folded
      rfl
    obtain ⟨front, e, rest, apart, word, command, there⟩ := ih s' used (still.trans left)
      (fun w x inside => known w x (List.mem_cons_of_mem _ (List.mem_of_mem_drop inside))) more
    obtain ⟨front', rfl, there'⟩ := there.cons (w := w) placed apart
    exact ⟨(w, .flag x) :: front', e, rest, rfl, word, command, there'⟩
  | case5 s e r unknown flag flags skipped filled =>
    have word : isFlag e = false := by
      obtain ⟨w, m⟩ := e
      cases m with
      | flag x => exact (flag w x rfl).elim
      | unknown => exact (unknown w rfl).elim
      | word => rfl
      | dashes => rfl
    obtain ⟨⟨s', n⟩, taken, more⟩ := Except.bind_eq_ok.1 done
    obtain ⟨rfl, rfl⟩ | ⟨rfl, -, done, command, v, values⟩ := takePositionals_cases left rfl taken
    · have extras := spent more left fun w x inside =>
        known w x (List.mem_cons_of_mem e ((List.dropWhile_sublist _).subset inside))
      simp at extras
    · change run (mainGrammar gs) s' (r.drop r.length) = _ at more
      rw [List.drop_length, run_flagless rfl, finish_done done] at more
      cases more
      exact ⟨[], e, r, rfl, word, command, front_nil values⟩

end

end Reading

def hides (w : String) : Bool :=
  match (mainGrammar []).mark w with
  | .ok (.flag x) => x.hidden?.isSome
  | _ => false

/-- In front of the command the grammar of the settings finds the same places, and then what is behind. -/
theorem sightings_narrowed {front front' rest : List (String × Mark)} (narrowed : front.Forall₂ Likewise front')
    (there : none ∉ sightings Sighting.held? front) (apparent : ∀ w x, (w, .flag x) ∈ front → x.hidden? = none) :
    sightings Sighting.place? (front' ++ rest) = sightings Sighting.held? front ++ sightings Sighting.place? rest := by
  induction narrowed with
  | nil => rfl
  | @cons e e' r r' first later ih =>
    obtain ⟨w, m⟩ := e
    obtain ⟨w', m'⟩ := e'
    obtain ⟨rfl, kind⟩ : w = w' ∧ Narrowed m m' := first
    have others : ∀ w x, (w, .flag x) ∈ r → x.hidden? = none :=
      fun w x inside => apparent w x (List.mem_cons_of_mem _ inside)
    cases kind with
    | word | dashes | unknown => exact ih there others
    | @own x own =>
      have read : x.place? = some (x.text.map .ofList) := if_pos (congrArg Flag.key own)
      have held : x.held? = some (x.text.map .ofList) := by rw [Sighting.held?, read, Option.some_or]
      simp only [sightings, held, Option.map_some, Option.toList_some, List.mem_append, List.mem_singleton,
        not_or] at there
      have next : (x.text.map String.ofList).or (Reading.follower (r' ++ rest)) =
          (x.text.map String.ofList).or (Reading.follower r) := by
        cases text : x.text with
        | some t => rfl
        | none =>
          obtain ⟨v, word⟩ := Option.ne_none_iff_exists'.1 (Ne.symm there.1)
          rw [text, Option.map_none, Option.none_or] at word
          obtain ⟨r, rfl⟩ := Reading.exists_of_follower word
          cases later with
          | @cons _ e _ _ both _ =>
            obtain ⟨v', m'⟩ := e
            obtain ⟨rfl, kind⟩ : v = v' ∧ Narrowed .word m' := both
            cases kind
            rfl
      rw [List.cons_append, sightings, sightings, read, held, Option.map_some, Option.map_some, next,
        ih there.2 others, List.append_assoc]
    | @other x m' other kind =>
      have held : x.held? = none := by
        rw [Sighting.held?, Sighting.place?, if_neg other, Option.none_or]
        exact apparent w x List.mem_cons_self
      rw [sightings, held] at there ⊢
      have later := ih there others
      obtain rfl | rfl := kind <;> exact later

variable {words : List String}

theorem seen_eq_append {front rest : List (String × Mark)} (marked : (mainGrammar gs).marks words = .ok (front ++ rest))
    (plain : ∀ e ∈ front, e.2 ≠ .dashes) (there : none ∉ sightings Sighting.held? front)
    (apparent : ∀ w ∈ front.map Prod.fst, hides w = false) :
    seen words = named gs (front.map Prod.fst) ++ seen (rest.map Prod.fst) := by
  obtain ⟨es', marked', narrowed⟩ := narrowed_marks marked
  have first : front.Forall₂ Likewise (es'.take front.length) := by
    simpa using List.forall₂_take front.length narrowed
  have plain' : ∀ e ∈ es'.take front.length, e.2 ≠ .dashes := by
    intro e' he' dashes
    obtain ⟨e, he, -, kind⟩ := (List.Forall₂.flip (R := flip Likewise) first).exists_of_mem he'
    exact plain e he (dashes ▸ kind).eq_dashes
  have last : (es'.drop front.length).map Prod.fst = rest.map Prod.fst := by
    rw [List.map_drop, Grammar.map_fst_marks marked', ← Grammar.map_fst_marks marked]
    simp
  have open' (w : String) (x : Sighting) (inside : (w, .flag x) ∈ front) : x.hidden? = none := by
    have marked := Grammar.mark_of_mem_marks marked (List.mem_append_left _ inside)
    have apparent := apparent w (List.mem_map_of_mem inside)
    change (mainGrammar []).mark w = _ at marked
    rw [hides, marked] at apparent
    exact Option.isNone_iff_eq_none.1 (by simpa using apparent)
  rw [← List.take_append_drop front.length es'] at marked'
  rw [seen, seen, named, Grammar.sighted, Grammar.sighted, Grammar.sighted, marked', ← last,
    (Grammar.marks_append marked' plain').2, (Grammar.marks_append marked plain).1]
  exact sightings_narrowed first there open'

namespace Invocation

variable {i : Invocation}

theorem read_eq_ok : read gs words = .ok i ↔ ∃ outer rest g inner,
    (mainGrammar gs).read words = .ok outer ∧ outer.command = some (i.command :: rest) ∧ outer.extras = [] ∧
      gs.lookup i.command = some g ∧ g.read rest = .ok inner ∧ inner.extras = [] ∧
      i.values = outer.values.insertAll inner.values.entries := by
  constructor
  · intro h
    obtain ⟨outer, front, h⟩ := Except.bind_eq_ok.1 h
    split at h
    · rename_i name rest command
      split at h
      · cases h
      · rename_i g known
        obtain ⟨inner, behind, h⟩ := Except.bind_eq_ok.1 h
        split at h
        · rename_i extras
          cases h
          exact ⟨outer, rest, g, inner, Except.mapError_eq_ok.1 front, command, (List.append_eq_nil_iff.1 extras).1,
            known, Except.mapError_eq_ok.1 behind, (List.append_eq_nil_iff.1 extras).2, rfl⟩
        · cases h
    · cases h
  · rintro ⟨outer, rest, g, inner, front, command, none, known, behind, none', values⟩
    simp only [read, front, behind, Except.mapError, Except.ok_bind, command, known, none, none', List.append_nil]
    rw [← values]
    rfl

/-- Where a command has no argument of that name, the settings are those that are named last in front of it.  What is
read before the commands are known has them too just when the places it sees are all there and the last is the same; in
particular when no place is behind switches and nothing from the command on looks like one. -/
theorem config_iff (h : read gs words = .ok i) (free : takes gs i configFlag.key = false) :
    ∃ front rest, words = front ++ i.command :: rest ∧
      (∃ outer, (mainGrammar gs).read words = .ok outer ∧ outer.command = some (i.command :: rest)) ∧
      i.values.get? configFlag.key = some (place (named gs front)) ∧
      ((∃ r, configGrammar.read words = .ok r ∧ r.values.get? configFlag.key = i.values.get? configFlag.key) ↔
        none ∉ seen words ∧ place (seen words) = place (named gs front)) ∧
      ((∀ w ∈ front, hides w = false) → seen (i.command :: rest) = [] →
        ∃ r, configGrammar.read words = .ok r ∧ r.values.get? configFlag.key = i.values.get? configFlag.key) := by
  obtain ⟨outer, rest, g, inner, read, command, extras, known, behind, -, values⟩ := read_eq_ok.1 h
  obtain ⟨es, marked, done⟩ := Grammar.read_eq_ok.1 read
  obtain ⟨front, e, others, rfl, word, command', first⟩ :=
    Reading.run_front rfl (fun w x inside => Grammar.mem_spellings_of_marks marked inside) done extras
  obtain ⟨same, rfl⟩ : e.1 = i.command ∧ others.map Prod.fst = rest := by
    simpa [command] using command'.symm
  have whole : words = front.map Prod.fst ++ i.command :: others.map Prod.fst := by
    rw [← Grammar.map_fst_marks marked, List.map_append, List.map_cons, same]
  have found : named gs (front.map Prod.fst) = sightings Sighting.held? front := by
    rw [named, Grammar.sighted, (Grammar.marks_append marked first.plain).1]
  have absent : configFlag.key ∉ inner.values.keys := fun inside => by
    have taken : (g.positionals.any (·.name = configFlag.key) || g.flags.any (·.key = configFlag.key)) = true := by
      have inside := Grammar.mem_keys_of_read behind inside
      simpa [Grammar.keys] using inside
    rw [takes, known, Option.any_some, taken] at free
    cases free
  have value : i.values.get? configFlag.key = some (place (named gs (front.map Prod.fst))) := by
    have default : (mainGrammar gs).defaults.get? configFlag.key = some .null := rfl
    rw [values, Table.get?_insertAll_of_not_mem _ absent, first.stored, default, found, place]
    cases lastPlace? (sightings Sighting.held? front) <;> rfl
  obtain ⟨es', marked', -⟩ := narrowed_marks marked
  have read_iff := read_configGrammar marked' (v := place (named gs (front.map Prod.fst)))
  rw [← value] at read_iff
  refine ⟨front.map Prod.fst, others.map Prod.fst, whole, ⟨outer, read, command⟩, value, read_iff, ?_⟩
  intro apparent none
  have same : seen words = named gs (front.map Prod.fst) := by
    rw [seen_eq_append marked first.plain first.there apparent, List.map_cons, same, none, List.append_nil]
  exact read_iff.2 ⟨by rw [same, found]; exact first.there, by rw [same]⟩

theorem config_list : ∃ i r, read [(listName, listGrammar)] ["-v", "-c", "sub", "list"] = .ok i ∧
    takes [(listName, listGrammar)] i configFlag.key = false ∧
      configGrammar.read ["-v", "-c", "sub", "list"] = .ok r ∧
      r.values.get? configFlag.key = i.values.get? configFlag.key ∧
      i.values.get? configFlag.key = some (.text "sub") := by
  have h : read [(listName, listGrammar)] ["-v", "-c", "sub", "list"] = .ok ⟨"list", ⟨[("subcommand", .text "list"),
    ("verbose", .bool true), ("config", .text "sub"), ("log_file", .null)]⟩⟩ := by cbv
  obtain ⟨front, rest, whole, -, -, -, agree⟩ := config_iff h rfl
  obtain ⟨rfl, rfl⟩ : front = ["-v", "-c", "sub"] ∧ rest = [] := by
    simpa [List.cons_eq_append_iff] using whole
  obtain ⟨r, found, same⟩ := agree (by decide) rfl
  exact ⟨_, r, h, rfl, found, same, rfl⟩

theorem config_missed : ∃ gs i r, grammars Command.builtin = .ok gs ∧
    read gs ["-vc", "sub", "class:create", "App\\A"] = .ok i ∧
      configGrammar.read ["-vc", "sub", "class:create", "App\\A"] = .ok r ∧
      i.values.get? configFlag.key = some (.text "sub") ∧ r.values.get? configFlag.key = some .null := by
  let gs : Grammars := Command.builtin.map (fun c => (c.name, grammar c)) ++
    [(listName, listGrammar), (serveName, serveGrammar)]
  have front : (mainGrammar gs).read ["-vc", "sub", "class:create", "App\\A"] = .ok {
      values := ⟨[("subcommand", .text "class:create"), ("verbose", .bool true), ("config", .text "sub"),
        ("log_file", .null)]⟩
      left := []
      command := some ["class:create", "App\\A"] } :=
    Grammar.read_eq_ok.2 ⟨[("-vc", .flag ⟨verboseFlag (some (.bool false)), "-v", some ['c']⟩), ("sub", .word),
      ("class:create", .word), ("App\\A", .word)], rfl, by rw [Reading.run_flag]; cbv⟩
  have behind : (grammar Command.createClass).read ["App\\A"] = .ok {
      values := ⟨[("fully-qualified-name", .text "App\\A"), ("dry_run", .bool false)]⟩
      left := [] } := by
    have clear := (offers_builtin Command.createClass List.mem_cons_self).clear
    have fits : ∀ i ∈ [Item.text "App\\A"], i.Fits (grammar Command.createClass) :=
      List.forall_mem_singleton.2 (.text (by decide))
    exact Grammar.read_items clear fits rfl
  have alone : configGrammar.read ["-vc", "sub", "class:create", "App\\A"] = .ok {
      values := ⟨[("config", .null)]⟩
      left := []
      extras := ["-vc", "sub", "class:create", "App\\A"] } :=
    Grammar.read_eq_ok.2 ⟨[("-vc", .unknown), ("sub", .word), ("class:create", .word), ("App\\A", .word)], rfl, by cbv⟩
  exact ⟨gs, ⟨"class:create", _⟩, _, rfl,
    read_eq_ok.2 ⟨_, _, _, _, front, rfl, rfl, rfl, behind, rfl, rfl⟩, alone, rfl, rfl⟩

end Invocation

end PhpScaffold.CommandLine
