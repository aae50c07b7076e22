import PhpScaffold.Proofs.CommandLine.Frame

namespace PhpScaffold.CommandLine

variable {g : Grammar} {gs : Grammars} {f : Flag} {w : String} {m : Mark} {x : Sighting}

namespace Grammar

def candidate? (w : List Char) (e : String × Flag) : Option Sighting :=
  let (short, behind) := (Text.characters w).splitAt 2
  if short.flatten = ['-', '-'] then
    let (lead, text) := cutEquals w
    if lead.isPrefixOf e.1.toList then some ⟨e.2, e.1, text⟩ else none
  else if e.1.toList = short.flatten then some ⟨e.2, e.1, some behind.flatten⟩
  else if w.isPrefixOf e.1.toList then some ⟨e.2, e.1, none⟩
  else none

theorem candidates_eq (g : Grammar) (w : List Char) : g.candidates w = g.spellings.filterMap (candidate? w) := by
  unfold candidates candidate?
  dsimp only
  split <;> rfl

theorem flag_of_candidate? {t : List Char} {e : String × Flag} (h : candidate? t e = some x) : x.flag = e.2 := by
  unfold candidate? at h
  dsimp only at h
  grind

def guess (g : Grammar) (w : List Char) (word : String) : Except Refusal Mark :=
  match g.candidates w with
  | [s] => .ok (.flag s)
  | [] => if (isNegativeNumber w && !g.hasNumberFlag) || w.contains ' ' then .ok .word else .ok .unknown
  | ss => .error (.ambiguous word (ss.map Sighting.spelling))

theorem mark_eq (g : Grammar) (word : String) : g.mark word =
    if word.toList.head? ≠ some '-' then .ok .word
    else match g.flag? word with
      | some f => .ok (.flag ⟨f, word, none⟩)
      | none =>
        if word.toList.length = 1 then .ok .word
        else match (cutEquals word.toList).2, g.flag? (.ofList (cutEquals word.toList).1) with
          | some r, some f => .ok (.flag ⟨f, .ofList (cutEquals word.toList).1, some r⟩)
          | _, _ => g.guess word.toList word := rfl

end Grammar

/-- What a word is taken for by the grammar of the settings when it is taken for something by the program's own. -/
inductive Narrowed : Mark → Mark → Prop
  | word : Narrowed .word .word
  | dashes : Narrowed .dashes .dashes
  | unknown : Narrowed .unknown .unknown
  | own {x : Sighting} : x.flag = configFlag → Narrowed (.flag x) (.flag x)
  | other {x : Sighting} {m : Mark} : x.flag.key ≠ configFlag.key → m = .word ∨ m = .unknown → Narrowed (.flag x) m

theorem Narrowed.eq_dashes (h : Narrowed m .dashes) : m = .dashes := by
  cases h with
  | dashes => rfl
  | other _ kind => cases kind <;> contradiction

def Likewise (e e' : String × Mark) : Prop := e.1 = e'.1 ∧ Narrowed e.2 e'.2

def otherSpellings : List (String × Flag) :=
  [("-h", helpFlag), ("--help", helpFlag), ("-v", verboseFlag (some (.bool false))),
    ("--verbose", verboseFlag (some (.bool false))), ("--log-file", logFlag)]

theorem spelling_cases (h : (w, f) ∈ (mainGrammar gs).spellings) : (w = "-h" ∧ f = helpFlag) ∨
    (w = "--help" ∧ f = helpFlag) ∨ (w = "-v" ∧ f = verboseFlag (some (.bool false))) ∨
      (w = "--verbose" ∧ f = verboseFlag (some (.bool false))) ∨ (w = "-c" ∧ f = configFlag) ∨
        (w = "--config" ∧ f = configFlag) ∨ (w = "--log-file" ∧ f = logFlag) := by
  change (w, f) ∈ [("-h", helpFlag), ("--help", helpFlag), ("-v", verboseFlag (some (.bool false))),
    ("--verbose", verboseFlag (some (.bool false))), ("-c", configFlag), ("--config", configFlag),
    ("--log-file", logFlag)] at h
  simpa using h

theorem flag?_of_mainGrammar (h : (mainGrammar gs).flag? w = some f) :
    (f = configFlag ∧ configGrammar.flag? w = some f) ∨
      (f.key ≠ configFlag.key ∧ configGrammar.flag? w = none ∧ (w, f) ∈ otherSpellings) := by
  obtain ⟨rfl, rfl⟩ | ⟨rfl, rfl⟩ | ⟨rfl, rfl⟩ | ⟨rfl, rfl⟩ | ⟨rfl, rfl⟩ | ⟨rfl, rfl⟩ | ⟨rfl, rfl⟩ :=
    spelling_cases (Grammar.mem_spellings_of_flag? h)
  case inr.inr.inr.inr.inl | inr.inr.inr.inr.inr.inl => exact .inl ⟨rfl, rfl⟩
  all_goals exact .inr ⟨by decide, rfl, by simp [otherSpellings]⟩

theorem flag?_eq_none_of_mainGrammar (h : (mainGrammar gs).flag? w = none) : configGrammar.flag? w = none := by
  cases found : configGrammar.flag? w with
  | none => rfl
  | some f =>
    have known : (w, f) ∈ [("-c", configFlag), ("--config", configFlag)] := Grammar.mem_spellings_of_flag? found
    simp only [List.mem_cons, Prod.mk.injEq, List.not_mem_nil, or_false] at known
    obtain ⟨rfl, rfl⟩ | ⟨rfl, rfl⟩ := known <;> cases h

theorem candidates_mainGrammar (t : List Char) : ((mainGrammar gs).candidates t).Perm
    (configGrammar.candidates t ++ otherSpellings.filterMap (Grammar.candidate? t)) := by
  rw [Grammar.candidates_eq, Grammar.candidates_eq, ← List.filterMap_append]
  exact List.Perm.filterMap _ (List.perm_append_comm_assoc (otherSpellings.take 4) configGrammar.spellings _)

theorem exists_guess_of_candidates_eq_nil {t : List Char} (none : configGrammar.candidates t = []) :
    ∃ m, configGrammar.guess t w = .ok m ∧ (m = .word ∨ m = .unknown) := by
  rw [Grammar.guess, none]
  dsimp only
  split
  · exact ⟨_, rfl, .inl rfl⟩
  · exact ⟨_, rfl, .inr rfl⟩

theorem narrowed_guess {t : List Char} (h : (mainGrammar gs).guess t w = .ok m) :
    ∃ m', configGrammar.guess t w = .ok m' ∧ Narrowed m m' := by
  have candidates := @candidates_mainGrammar gs t
  unfold Grammar.guess at h
  split at h
  · rename_i x one
    cases h
    rw [one, List.singleton_perm] at candidates
    obtain ⟨none, other⟩ | ⟨own, -⟩ := List.append_eq_singleton_iff.1 candidates.symm
    · obtain ⟨m', marked, kind⟩ := exists_guess_of_candidates_eq_nil (w := w) none
      refine ⟨m', marked, .other ?_ kind⟩
      have inside : x ∈ otherSpellings.filterMap (Grammar.candidate? t) := by simp [other]
      obtain ⟨e, he, found⟩ := List.mem_filterMap.1 inside
      rw [Grammar.flag_of_candidate? found]
      have keys : ∀ e ∈ otherSpellings, e.2.key ≠ configFlag.key := by decide
      exact keys e he
    · refine ⟨.flag x, by rw [Grammar.guess, own], .own ?_⟩
      have inside : x ∈ configGrammar.candidates t := by simp [own]
      rw [Grammar.candidates_eq] at inside
      obtain ⟨e, he, found⟩ := List.mem_filterMap.1 inside
      rw [Grammar.flag_of_candidate? found]
      obtain rfl | rfl : e = ("-c", configFlag) ∨ e = ("--config", configFlag) := by
        simpa [Grammar.spellings, configGrammar, configFlag] using he
      all_goals rfl
  · rename_i none
    rw [none, List.nil_perm] at candidates
    have numbers : (mainGrammar gs).hasNumberFlag = configGrammar.hasNumberFlag := rfl
    rw [numbers] at h
    rw [Grammar.guess, (List.append_eq_nil_iff.1 candidates).1]
    dsimp only
    split at h <;> cases h
    · exact ⟨.word, if_pos ‹_›, .word⟩
    · exact ⟨.unknown, if_neg ‹_›, .unknown⟩
  · cases h

theorem cutEquals_eq {t r : List Char} (h : (Grammar.cutEquals t).2 = some r) :
    t = (Grammar.cutEquals t).1 ++ '=' :: r := by
  unfold Grammar.cutEquals at h ⊢
  split
  · rename_i none
    rw [none] at h
    cases h
  · rename_i c behind cut
    rw [cut] at h
    cases h
    have first := List.head?_dropWhile_not (fun d => decide (d ≠ '=')) t
    rw [cut] at first
    obtain rfl : c = '=' := by simpa using first
    rw [← cut]
    exact List.takeWhile_append_dropWhile.symm

theorem candidates_eq_nil_of_cutEquals {t r : List Char}
    (spelled : (.ofList (Grammar.cutEquals t).1, f) ∈ otherSpellings) (text : (Grammar.cutEquals t).2 = some r) : configGrammar.candidates t = [] := by
  have whole := cutEquals_eq text
  have lead : (String.ofList (Grammar.cutEquals t).1).toList = (Grammar.cutEquals t).1 := String.toList_ofList
  rw [← lead] at whole
  generalize String.ofList (Grammar.cutEquals t).1 = s at *
  subst whole
  simp only [otherSpellings, List.mem_cons, Prod.mk.injEq, List.not_mem_nil, or_false] at spelled
  obtain ⟨rfl, -⟩ | ⟨rfl, -⟩ | ⟨rfl, -⟩ | ⟨rfl, -⟩ | ⟨rfl, -⟩ := spelled <;> rfl

theorem narrowed_mark (h : (mainGrammar gs).mark w = .ok m) : ∃ m', configGrammar.mark w = .ok m' ∧ Narrowed m m' := by
  rw [Grammar.mark_eq] at h ⊢
  split at h
  · cases h
    exact ⟨_, if_pos ‹_›, .word⟩
  · rename_i dashed
    rw [if_neg dashed]
    split at h
    · rename_i f found
      cases h
      obtain ⟨own, found⟩ | ⟨other, none, spelled⟩ := flag?_of_mainGrammar found
      · exact ⟨_, by rw [found], .own own⟩
      · refine ⟨.unknown, ?_, .other other (.inr rfl)⟩
        simp only [otherSpellings, List.mem_cons, Prod.mk.injEq, List.not_mem_nil, or_false] at spelled
        obtain ⟨rfl, -⟩ | ⟨rfl, -⟩ | ⟨rfl, -⟩ | ⟨rfl, -⟩ | ⟨rfl, -⟩ := spelled <;> rfl
    · rename_i none
      rw [flag?_eq_none_of_mainGrammar none]
      dsimp only
      split at h
      · cases h
        exact ⟨_, if_pos ‹_›, .word⟩
      · rename_i longer
        rw [if_neg longer]
        split at h
        · rename_i r f text found
          cases h
          rw [text]
          obtain ⟨own, found⟩ | ⟨other, none, spelled⟩ := flag?_of_mainGrammar found
          · exact ⟨_, by rw [found], .own own⟩
          · rw [none]
            obtain ⟨m', marked, kind⟩ :=
              exists_guess_of_candidates_eq_nil (w := w) (candidates_eq_nil_of_cutEquals spelled text)
            exact ⟨m', marked, .other other kind⟩
        · rename_i apart
          obtain ⟨m', marked, narrowed⟩ := narrowed_guess h
          refine ⟨m', ?_, narrowed⟩
          split
          · rename_i r f text found
            cases known : (mainGrammar gs).flag? (.ofList (Grammar.cutEquals w.toList).1) with
            | none =>
              rw [flag?_eq_none_of_mainGrammar known] at found
              cases found
            | some f' => exact (apart r f' text known).elim
          · exact marked

theorem narrowed_marks {words : List String} {es : List (String × Mark)} (h : (mainGrammar gs).marks words = .ok es) :
    ∃ es', configGrammar.marks words = .ok es' ∧ es.Forall₂ Likewise es' := by
  induction words generalizing es with
  | nil =>
    cases h
    exact ⟨[], rfl, .nil⟩
  | cons w r ih =>
    obtain ⟨dashes, rfl⟩ | ⟨other, m, es, first, rest, rfl⟩ := Grammar.marks_cons_eq_ok.1 h
    · refine ⟨_, Grammar.marks_cons_eq_ok.2 (.inl ⟨dashes, rfl⟩), .cons ⟨rfl, .dashes⟩ ?_⟩
      rw [List.forall₂_same]
      intro e he
      obtain ⟨v, -, rfl⟩ := List.mem_map.1 he
      exact ⟨rfl, .word⟩
    · obtain ⟨m', first', narrowed⟩ := narrowed_mark first
      obtain ⟨es', rest', all⟩ := ih rest
      exact ⟨(w, m') :: es', Grammar.marks_cons_eq_ok.2 (.inr ⟨other, m', es', first', rest', rfl⟩),
        .cons ⟨rfl, narrowed⟩ all⟩

def sightings (reads : Sighting → Option (Option String)) : List (String × Mark) → List (Option String)
  | [] => []
  | (_, .flag x) :: r => ((reads x).map (·.or (Reading.follower r))).toList ++ sightings reads r
  | _ :: r => sightings reads r

def Sighting.place? (x : Sighting) : Option (Option String) :=
  if x.flag.key = configFlag.key then some (x.text.map .ofList) else none

def Grammar.sighted (g : Grammar) (reads : Sighting → Option (Option String)) (words : List String) :
    List (Option String) :=
  match g.marks words with
  | .ok es => sightings reads es
  | .error _ => []

/-- The places that are found before the commands are known. -/
def seen (words : List String) : List (Option String) := configGrammar.sighted Sighting.place? words

def lastPlace? (places : List (Option String)) : Option Value :=
  places.getLast?.map fun p => Reading.gathered p.toList

def place (places : List (Option String)) : Value := (lastPlace? places).getD .null

theorem lastPlace?_append (ps qs : List (Option String)) :
    lastPlace? (ps ++ qs) = (lastPlace? qs).or (lastPlace? ps) := by
  rw [lastPlace?, List.getLast?_append, Option.map_or]
  rfl

namespace Reading

variable {s q : Reading} {r : List (String × Mark)} {reads : Sighting → Option (Option String)}

theorem sightings_flagless (h : r.any isFlag = false) : sightings reads r = [] := by
  induction r with
  | nil => rfl
  | cons e r ih =>
    obtain ⟨w, m⟩ := e
    rw [List.any_cons, Bool.or_eq_false_iff] at h
    cases m with
    | flag x => cases h.1
    | unknown => cases h.1
    | word => exact ih h.2
    | dashes => exact ih h.2

theorem sightings_dropWhile (r : List (String × Mark)) :
    sightings reads (r.dropWhile (!isFlag ·)) = sightings reads r := by
  induction r with
  | nil => rfl
  | cons e r ih =>
    obtain ⟨w, m⟩ := e
    cases m with
    | flag x => rfl
    | unknown => rfl
    | word => exact ih
    | dashes => exact ih

theorem sightings_drop_follower {w : String} (h : follower r = some w) :
    sightings reads (r.drop 1) = sightings reads r := by
  unfold follower at h
  split at h
  · rfl
  · cases h

theorem takeSighting_place (own : x.flag = configFlag) : takeSighting g s x r =
    match (x.text.map .ofList).or (follower r) with
    | some v => .ok (s.put configFlag.key (gathered [v]), x.text.isNone)
    | none => .error (.refused (.valueMissing configFlag.title)) := by
  obtain ⟨f, spelling, text⟩ := x
  obtain rfl : f = configFlag := own
  have stored (v : String) : [(configFlag, some v)].foldlM takeFlag s = .ok (s.put configFlag.key (gathered [v])) := rfl
  rw [takeSighting_eq, Grammar.cluster.eq_def]
  cases text with
  | some t =>
    have whole : String.ofList (Text.characters t).flatten = .ofList t := by rw [Text.flatten_characters]
    simp only [Option.map_some, show configFlag.takesValue = true from rfl, if_true, whole, Except.pure_eq, stored,
      Except.ok_bind, Option.some_or, Option.isNone_some]
  | none =>
    cases follower r with
    | some v => simp only [Option.map_none, show configFlag.takesValue = true from rfl, if_true, Except.pure_eq, stored,
        Except.ok_bind, Option.none_or, Option.isNone_none]
    | none => rfl

theorem run_configGrammar (left : s.left = []) (own : ∀ w x, (w, .flag x) ∈ r → x.flag = configFlag) :
    if none ∈ sightings Sighting.place? r then ∃ stop, s.run configGrammar r = .error stop
    else ∃ q, s.run configGrammar r = .ok q ∧
      q.values.get? configFlag.key = (lastPlace? (sightings Sighting.place? r)).or (s.values.get? configFlag.key) := by
  fun_induction run configGrammar s r with
  | case1 s r flagless =>
    rw [sightings_flagless (by simpa using flagless)]
    exact ⟨_, finish_done left, rfl⟩
  | case2 s flags => exact absurd rfl flags
  | case3 s w r flags ih => exact ih left fun w x inside => own w x (List.mem_cons_of_mem _ inside)
  | case4 s w x r flags ih =>
    have mine : x.flag = configFlag := own w x List.mem_cons_self
    have read : x.place? = some (x.text.map .ofList) := if_pos (congrArg Flag.key mine)
    rw [takeSighting_place mine]
    simp only [sightings, read, Option.map_some, Option.toList_some, List.mem_append, List.mem_singleton]
    cases place : (x.text.map String.ofList).or (follower r) with
    | none => exact ⟨_, rfl⟩
    | some v =>
      have rest : sightings Sighting.place? (r.drop (if x.text.isNone then 1 else 0)) =
          sightings Sighting.place? r := by
        cases text : x.text with
        | some t => rfl
        | none => exact sightings_drop_follower (by simpa [text] using place)
      have later := ih (s.put configFlag.key (gathered [v])) x.text.isNone left
        fun w y inside => own w y (List.mem_cons_of_mem _ (List.mem_of_mem_drop inside))
      simp only [dite_eq_ite, rest] at later
      simp only [Except.ok_bind, reduceCtorEq, false_or]
      by_cases missing : none ∈ sightings Sighting.place? r
      · rw [if_pos missing] at later ⊢
        exact later
      · rw [if_neg missing] at later ⊢
        obtain ⟨q, done, stored⟩ := later
        refine ⟨q, done, ?_⟩
        rw [stored, lastPlace?_append, Option.or_assoc, get?_put, if_pos rfl]
        rfl
  | case5 s e r unknown flag _ skipped =>
    rw [takePositionals_done left]
    have rest : sightings Sighting.place? (e :: r) = sightings Sighting.place? (r.dropWhile (!isFlag ·)) := by
      obtain ⟨w, m⟩ := e
      rw [sightings_dropWhile]
      cases m with
      | flag x => exact (flag w x rfl).elim
      | unknown => exact (unknown w rfl).elim
      | word => rfl
      | dashes => rfl
    rw [rest]
    exact skipped s left fun w x inside => own w x (List.mem_cons_of_mem e ((List.dropWhile_sublist _).subset inside))

end Reading

theorem read_configGrammar {words : List String} {es : List (String × Mark)}
    (marked : configGrammar.marks words = .ok es) {v : Value} :
    (∃ r, configGrammar.read words = .ok r ∧ r.values.get? configFlag.key = some v) ↔
      none ∉ seen words ∧ place (seen words) = v := by
  have own (w : String) (x : Sighting) (inside : (w, .flag x) ∈ es) : x.flag = configFlag := by
    have known := Grammar.mem_flags_of_mem_spellings (Grammar.mem_spellings_of_marks marked inside)
    exact List.mem_singleton.1 known
  have sighted : seen words = sightings Sighting.place? es := by
    rw [seen, Grammar.sighted, marked]
  have ran := Reading.run_configGrammar (s := { values := configGrammar.defaults, left := [] }) rfl own
  have read : configGrammar.read words =
      Reading.run configGrammar { values := configGrammar.defaults, left := [] } es := by
    rw [Grammar.read, marked]
    rfl
  rw [read, sighted]
  by_cases missing : none ∈ sightings Sighting.place? es
  · rw [if_pos missing] at ran
    obtain ⟨stop, failed⟩ := ran
    simp [failed, missing]
  · rw [if_neg missing] at ran
    obtain ⟨q, done, stored⟩ := ran
    have value : q.values.get? configFlag.key = some (place (sightings Sighting.place? es)) := by
      rw [stored, place]
      cases lastPlace? (sightings Sighting.place? es) <;> rfl
    simp [done, value, missing]

end PhpScaffold.CommandLine
