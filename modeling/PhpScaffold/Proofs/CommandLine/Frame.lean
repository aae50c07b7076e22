import PhpScaffold.Proofs.CommandLine.Interface

namespace PhpScaffold.CommandLine

variable {g : Grammar} {s q : Reading} {f : Flag} {spelling w : String}

namespace Grammar

def keys (g : Grammar) : List String := g.positionals.map Positional.name ++ g.flags.map Flag.key

theorem mem_spellings_of_flag? (h : g.flag? spelling = some f) : (spelling, f) ∈ g.spellings :=
  Table.mem_of_get? (t := ⟨g.spellings⟩) h

theorem mem_flags_of_mem_spellings (h : (spelling, f) ∈ g.spellings) : f ∈ g.flags := by
  obtain ⟨f', known, spelled⟩ := List.mem_flatMap.1 h
  obtain ⟨s, -, same⟩ := List.mem_map.1 spelled
  cases same
  exact known

theorem mem_spellings_of_mark {x : Sighting} (h : g.mark w = .ok (.flag x)) : (x.spelling, x.flag) ∈ g.spellings := by
  have candidate {x : Sighting} (h : x ∈ g.candidates w.toList) : (x.spelling, x.flag) ∈ g.spellings := by
    unfold candidates at h
    dsimp only at h
    split at h
    all_goals
      obtain ⟨⟨s, f⟩, known, seen⟩ := List.mem_filterMap.1 h
      dsimp only at seen
      grind
  unfold mark at h
  dsimp only at h
  split at h
  · cases h
  · split at h
    · cases h
      exact mem_spellings_of_flag? ‹_›
    · split at h
      · cases h
      · split at h
        · cases h
          exact mem_spellings_of_flag? ‹_›
        · split at h
          · cases h
            exact candidate (by simp [*])
          · split at h <;> cases h
          · cases h

inductive Clusters (g : Grammar) (next : Option String) :
    Flag → String → Option (List (List Char)) → List Taken → Bool → Prop
  | inside {f : Flag} {spelling : String} {text : List (List Char)} : f.takesValue = true →
    Clusters g next f spelling (some text) [(f, some (.ofList text.flatten))] false
  | behind {f : Flag} {spelling w : String} : f.takesValue = true → next = some w →
    Clusters g next f spelling none [(f, some w)] true
  | without {f : Flag} {spelling : String} : f.intake = .textOrNothing → next = none →
    Clusters g next f spelling none [(f, none)] false
  | switch {f : Flag} {spelling : String} : f.takesValue = false → Clusters g next f spelling none [(f, none)] false
  | further {f f' : Flag} {spelling : String} {c : List Char} {r : List (List Char)} {taken : List Taken}
    {used : Bool} : f.takesValue = false → spelling.toList[1]? ≠ some '-' → g.flag? (.ofList ('-' :: c)) = some f' →
    Clusters g next f' (.ofList ('-' :: c)) (if r.isEmpty then none else some r) taken used →
    Clusters g next f spelling (some (c :: r)) ((f, none) :: taken) used

theorem clusters_of_cluster {next : Option String} {text : Option (List (List Char))} {taken : List Taken}
    {used : Bool} (h : g.cluster next f spelling text = .ok (taken, used)) :
    Clusters g next f spelling text taken used := by
  fun_induction cluster g next f spelling text generalizing taken used with
  | case1 f spelling takes w next =>
    cases h
    exact .behind takes next
  | case2 f spelling _ next takes =>
    cases h
    exact .without takes next
  | case3 | case6 | case7 => cases h
  | case4 f spelling takes =>
    cases h
    exact .switch (by simpa using takes)
  | case5 f spelling text takes =>
    cases h
    exact .inside takes
  | case8 f spelling takes c r short f' known =>
    rename_i ih
    obtain ⟨dashed, known⟩ : ¬ spelling.toList[1]? = some '-' ∧ g.flag? short = some f' := by simpa using known
    cases taken' : g.cluster next f' short (if r.isEmpty then none else some r) with
    | error why =>
      rw [taken'] at h
      cases h
    | ok p =>
      rw [taken'] at h
      cases h
      exact .further (by simpa using takes) dashed known (ih taken')

theorem Clusters.mem_flags {next : Option String} {text : Option (List (List Char))} {taken : List Taken} {used : Bool}
    (h : Clusters g next f spelling text taken used) (known : f ∈ g.flags) : ∀ t ∈ taken, t.1 ∈ g.flags := by
  induction h with
  | inside | behind | without | switch => simpa using known
  | further _ _ found _ ih =>
    exact List.forall_mem_cons.2 ⟨known, ih (mem_flags_of_mem_spellings (mem_spellings_of_flag? found))⟩

end Grammar

namespace Reading

/-- What becomes of a reading: new keys are those of the grammar, positionals are filled and nothing left over is put
away again. -/
structure Onward (g : Grammar) (s q : Reading) : Prop where
  keys : ∀ k ∈ q.values.keys, k ∈ s.values.keys ∨ k ∈ g.keys
  left : q.left ⊆ s.left
  extras : s.extras <+: q.extras

@[refl]
theorem Onward.refl (g : Grammar) (s : Reading) : Onward g s s :=
  ⟨fun _ => .inl, List.Subset.refl _, List.prefix_rfl⟩

theorem Onward.trans {s' : Reading} (h : Onward g s s') (h' : Onward g s' q) : Onward g s q :=
  ⟨fun k hk => (h'.keys k hk).elim (h.keys k) .inr, List.Subset.trans h'.left h.left, h.extras.trans h'.extras⟩

theorem get?_put (s : Reading) (key l : String) (v : Value) :
    (s.put key v).values.get? l = if l = key then some v else s.values.get? l :=
  Table.get?_insert s.values key l v

theorem onward_put {key : String} (known : key ∈ g.keys) (v : Value) : Onward g s (s.put key v) := by
  refine ⟨fun k hk => ?_, List.Subset.refl _, List.prefix_rfl⟩
  rw [put, Table.keys_insert] at hk
  split at hk
  · exact .inl hk
  · refine (List.mem_append.1 hk).imp id fun new => ?_
    rw [List.mem_singleton.1 new]
    exact known

theorem exists_put_of_takeFlag {t : Taken} (h : s.takeFlag t = .ok q) : ∃ v, q = s.put t.1.key v := by
  obtain ⟨f, text⟩ := t
  unfold takeFlag at h
  dsimp only at h
  split at h
  · cases h
  · cases h
    exact ⟨_, rfl⟩
  · cases h
    exact ⟨_, rfl⟩
  · cases h
    exact ⟨_, rfl⟩
  · split at h
    · cases h
      exact ⟨_, rfl⟩
    · split at h <;> cases h
      exact ⟨_, rfl⟩

theorem onward_takeFlags {taken : List Taken} (known : ∀ t ∈ taken, t.1 ∈ g.flags)
    (h : taken.foldlM takeFlag s = .ok q) : Onward g s q := by
  induction taken generalizing s with
  | nil =>
    cases h
    rfl
  | cons t r ih =>
    obtain ⟨first, rest⟩ := List.forall_mem_cons.1 known
    rw [List.foldlM_cons] at h
    obtain ⟨s', one, more⟩ := Except.bind_eq_ok.1 h
    obtain ⟨v, rfl⟩ := exists_put_of_takeFlag one
    exact (onward_put (List.mem_append_right _ (List.mem_map_of_mem first)) v).trans (ih rest more)

def follower : List (String × Mark) → Option String
  | (w, .word) :: _ => some w
  | _ => none

theorem takeSighting_eq (g : Grammar) (s : Reading) (x : Sighting) (r : List (String × Mark)) : takeSighting g s x r =
    match g.cluster (follower r) x.flag x.spelling (x.text.map Text.characters) with
    | .error why => .error (.refused why)
    | .ok (taken, used) => taken.foldlM takeFlag s >>= fun s => .ok (s, used) := rfl

theorem takeSighting_eq_ok {x : Sighting} {r : List (String × Mark)} {used : Bool} :
    takeSighting g s x r = .ok (q, used) ↔ ∃ taken,
      g.cluster (follower r) x.flag x.spelling (x.text.map Text.characters) = .ok (taken, used) ∧
        taken.foldlM takeFlag s = .ok q := by
  rw [takeSighting_eq]
  cases g.cluster (follower r) x.flag x.spelling (x.text.map Text.characters) with
  | error why => simp
  | ok p =>
    obtain ⟨taken, used'⟩ := p
    simp only [Except.bind_eq_ok, Except.ok.injEq, Prod.mk.injEq]
    constructor
    · rintro ⟨q', folded, rfl, rfl⟩
      exact ⟨taken, ⟨rfl, rfl⟩, folded⟩
    · rintro ⟨_, ⟨rfl, rfl⟩, folded⟩
      exact ⟨q, folded, rfl, rfl⟩

theorem onward_takeSighting {x : Sighting} {r : List (String × Mark)} {used : Bool} (known : x.flag ∈ g.flags)
    (h : takeSighting g s x r = .ok (q, used)) : Onward g s q := by
  obtain ⟨taken, clustered, folded⟩ := takeSighting_eq_ok.1 h
  exact onward_takeFlags ((Grammar.clusters_of_cluster clustered).mem_flags known) folded

theorem onward_takePositional {p : Positional} (known : p ∈ g.positionals) {words : List String}
    (h : s.takePositional p words = .ok q) : Onward g s q := by
  have stored (v : Value) : Onward g s (s.put p.name v) :=
    onward_put (List.mem_append_left _ (List.mem_map_of_mem known)) v
  unfold takePositional at h
  split at h
  · split at h
    · cases h
      rfl
    · split at h <;> cases h
      exact ⟨(stored _).keys, (stored .null).left, (stored .null).extras⟩
  · cases h
    exact stored _
  · cases h
    exact stored _

theorem onward_takePositionals (known : ∀ p ∈ s.left, p ∈ g.positionals) {words : List (String × Mark)} {n : Nat}
    (h : s.takePositionals words = .ok (q, n)) : Onward g s q := by
  have go (ns : List Nat) : ∀ (s : Reading) (ws : List String) (n : Nat), (∀ p ∈ s.left, p ∈ g.positionals) →
      takePositionals.go s ns ws = .ok (q, n) → Onward g s q := by
    induction ns with
    | nil =>
      intro s ws n _ h
      cases h
      rfl
    | cons k ns ih =>
      intro s ws n known h
      unfold takePositionals.go at h
      split at h
      · cases h
        rfl
      · rename_i p ps left
        obtain ⟨s', one, more⟩ := Except.bind_eq_ok.1 h
        obtain ⟨⟨q', m⟩, rest, same⟩ := Except.bind_eq_ok.1 more
        cases same
        rw [left] at known
        obtain ⟨first, others⟩ := List.forall_mem_cons.1 known
        have fewer : Onward g s { s with left := ps } :=
          ⟨fun _ => .inl, by rw [left]; exact List.subset_cons_self p ps, List.prefix_rfl⟩
        have filled := onward_takePositional first one
        exact fewer.trans (filled.trans (ih s' _ m (fun p hp => others p (filled.left hp)) rest))
  exact go _ _ _ _ known h

theorem onward_finish (known : ∀ p ∈ s.left, p ∈ g.positionals) {words : List (String × Mark)}
    (h : s.finish words = .ok q) : Onward g s q := by
  obtain ⟨⟨s', n⟩, taken, more⟩ := Except.bind_eq_ok.1 h
  have onward := onward_takePositionals known taken
  dsimp only at more
  split at more <;> cases more
  exact ⟨onward.keys, onward.left, onward.extras.trans (List.prefix_append _ _)⟩

theorem onward_run {words : List (String × Mark)} (flags : ∀ w x, (w, .flag x) ∈ words → x.flag ∈ g.flags)
    (known : ∀ p ∈ s.left, p ∈ g.positionals) (h : s.run g words = .ok q) : Onward g s q := by
  have onto {s s' : Reading} (known : ∀ p ∈ s.left, p ∈ g.positionals) (step : Onward g s s') :
      ∀ p ∈ s'.left, p ∈ g.positionals := fun p hp => known p (step.left hp)
  fun_induction run g s words with
  | case1 s words flagless => exact onward_finish known h
  | case2 s some => exact onward_finish known h
  | case3 s w r some ih =>
    have step : Onward g s { s with extras := s.extras ++ [w] } :=
      ⟨fun _ => .inl, List.Subset.refl _, List.prefix_append _ _⟩
    exact step.trans (ih (fun w x inside => flags w x (List.mem_cons_of_mem _ inside)) known h)
  | case4 s w x r some ih =>
    obtain ⟨⟨s', used⟩, taken, more⟩ := Except.bind_eq_ok.1 h
    have step := onward_takeSighting (flags w x List.mem_cons_self) taken
    exact step.trans (ih s' used (fun w x inside => flags w x (List.mem_cons_of_mem _ (List.mem_of_mem_drop inside)))
      (onto known step) more)
  | case5 s e r =>
    rename_i skipped filled
    obtain ⟨⟨s', n⟩, taken, more⟩ := Except.bind_eq_ok.1 h
    have step := onward_takePositionals known taken
    have later {ws : List (String × Mark)} (part : ws ⊆ r) : ∀ w x, (w, .flag x) ∈ ws → x.flag ∈ g.flags :=
      fun w x inside => flags w x (List.mem_cons_of_mem e (part inside))
    cases n with
    | zero =>
      have put : Onward g s' { s' with extras := s'.extras ++ (e :: r.takeWhile (!isFlag ·)).map Prod.fst } :=
        ⟨fun _ => .inl, List.Subset.refl _, List.prefix_append _ _⟩
      have rest := skipped s' (later (List.dropWhile_sublist _).subset) (onto known (step.trans put)) more
      exact step.trans (put.trans rest)
    | succ n => exact step.trans (filled s' n (later (List.drop_subset n r)) (onto known step) more)

end Reading

namespace Grammar

variable {words : List String} {es : List (String × Mark)}

theorem marks_cons_eq_ok : g.marks (w :: words) = .ok es ↔
    (w = "--" ∧ es = (w, .dashes) :: words.map fun v => (v, .word)) ∨
      (w ≠ "--" ∧ ∃ m es', g.mark w = .ok m ∧ g.marks words = .ok es' ∧ es = (w, m) :: es') := by
  rw [marks]
  split
  · simp [*, @eq_comm _ es]
  · simp [*, Except.bind_eq_ok, @eq_comm _ es]

theorem map_fst_marks (h : g.marks words = .ok es) : es.map Prod.fst = words := by
  induction words generalizing es with
  | nil =>
    cases h
    rfl
  | cons w r ih =>
    obtain ⟨-, rfl⟩ | ⟨-, m, es', -, rest, rfl⟩ := marks_cons_eq_ok.1 h
    · simp [Function.comp_def]
    · rw [List.map_cons, ih rest]

theorem marks_append {front rest : List (String × Mark)} (h : g.marks words = .ok (front ++ rest))
    (plain : ∀ e ∈ front, e.2 ≠ .dashes) :
    g.marks (front.map Prod.fst) = .ok front ∧ g.marks (rest.map Prod.fst) = .ok rest := by
  induction front generalizing words with
  | nil =>
    rw [List.nil_append] at h
    exact ⟨rfl, by rw [map_fst_marks h, h]⟩
  | cons e r ih =>
    obtain ⟨first, others⟩ := List.forall_mem_cons.1 plain
    cases words with
    | nil => cases h
    | cons w ws =>
      obtain ⟨-, same⟩ | ⟨other, m, es', marked, later, same⟩ := marks_cons_eq_ok.1 h
      · obtain ⟨rfl, -⟩ := List.cons.inj same
        exact absurd rfl first
      · obtain ⟨rfl, rfl⟩ := List.cons.inj same
        obtain ⟨front, rest⟩ := ih later others
        exact ⟨marks_cons_eq_ok.2 (.inr ⟨other, m, r, marked, front, rfl⟩), rest⟩

theorem mark_of_mem_marks (h : g.marks words = .ok es) {x : Sighting} (inside : (w, .flag x) ∈ es) :
    g.mark w = .ok (.flag x) := by
  induction words generalizing es with
  | nil =>
    cases h
    cases inside
  | cons v r ih =>
    obtain ⟨-, rfl⟩ | ⟨-, m, es', first, rest, rfl⟩ := marks_cons_eq_ok.1 h
    · simp at inside
    · obtain same | later := List.mem_cons.1 inside
      · cases same
        exact first
      · exact ih rest later

theorem mem_spellings_of_marks (h : g.marks words = .ok es) {x : Sighting} (inside : (w, .flag x) ∈ es) :
    (x.spelling, x.flag) ∈ g.spellings :=
  mem_spellings_of_mark (mark_of_mem_marks h inside)

theorem read_eq_ok : g.read words = .ok q ↔
    ∃ es, g.marks words = .ok es ∧ ({ values := g.defaults, left := g.positionals } : Reading).run g es = .ok q := by
  rw [read, Except.bind_eq_ok]
  exact exists_congr fun es => and_congr_left' Except.mapError_eq_ok

theorem mem_keys_of_read (h : g.read words = .ok q) {k : String} (hk : k ∈ q.values.keys) :
    k ∈ g.keys := by
  obtain ⟨es, marked, done⟩ := read_eq_ok.1 h
  have flags (w : String) (x : Sighting) (inside : (w, .flag x) ∈ es) : x.flag ∈ g.flags :=
    mem_flags_of_mem_spellings (mem_spellings_of_marks marked inside)
  have onward := Reading.onward_run flags (fun p hp => hp) done
  obtain default | known := onward.keys k hk
  · obtain ⟨v, found⟩ := Table.exists_get?_of_mem_keys default
    rw [get?_defaults] at found
    obtain positional | flag := List.mem_append.1 (Table.mem_of_get? (t := ⟨g.defaultEntries⟩) found)
    · obtain ⟨p, hp, same⟩ := List.mem_map.1 positional
      cases same
      exact List.mem_append_left _ (List.mem_map_of_mem hp)
    · obtain ⟨f, hf, same⟩ := List.mem_filterMap.1 flag
      obtain ⟨d, -, same⟩ := Option.map_eq_some_iff.1 same
      cases same
      exact List.mem_append_right _ (List.mem_map_of_mem hf)
  · exact known

end Grammar

end PhpScaffold.CommandLine
