import PhpScaffold.CommandLine.Reading
import PhpScaffold.Proofs.Except
import PhpScaffold.Proofs.Table

namespace PhpScaffold.CommandLine

def IsText (w : String) : Prop := w.toList.head? ≠ some '-'

instance (w : String) : Decidable (IsText w) := inferInstanceAs (Decidable (_ ≠ _))

theorem IsText.ne_dashes {w : String} (h : IsText w) : w ≠ "--" := by
  rintro rfl
  exact h (by decide)

/-- A part of a command line: a text, or a flag in one of its spellings with the text that it takes. -/
inductive Item
  | text (s : String)
  | flag (f : Flag) (spelling : String) (value : Option String)

namespace Item

def words : Item → List String
  | text s => [s]
  | flag _ spelling value => spelling :: value.toList

def marked : Item → List (String × Mark)
  | text s => [(s, .word)]
  | flag f spelling value => (spelling, .flag ⟨f, spelling, none⟩) :: value.toList.map fun v => (v, .word)

def stored : Option String → Value
  | none => .bool true
  | some v => .text v

inductive Fits (g : Grammar) : Item → Prop
  | text {s : String} : IsText s → Fits g (text s)
  | switch {f : Flag} {spelling : String} :
    f ∈ g.flags → spelling ∈ f.spellings → f.intake = .nothing → Fits g (flag f spelling none)
  | setting {f : Flag} {spelling v : String} :
    f ∈ g.flags → spelling ∈ f.spellings → f.intake = .text → IsText v → Fits g (flag f spelling (some v))

def texts : List Item → List String
  | [] => []
  | text s :: r => s :: texts r
  | flag .. :: r => texts r

def last? : List Item → String → Option Value
  | [], _ => none
  | text _ :: r, key => last? r key
  | flag f _ value :: r, key => (last? r key).or (if key = f.key then some (stored value) else none)

def entries : List Positional → List Item → List (String × Value)
  | p :: ps, text s :: r => (p.name, .text s) :: entries ps r
  | [], text _ :: r => entries [] r
  | ps, flag f _ value :: r => (f.key, stored value) :: entries ps r
  | _, [] => []

def Lacks (items : List Item) (key : String) : Prop :=
  ∀ f spelling value, flag f spelling value ∈ items → f.key ≠ key

theorem Lacks.tail {i : Item} {r : List Item} {key : String} (h : Lacks (i :: r) key) : Lacks r key :=
  fun f spelling value hf => h f spelling value (List.mem_cons_of_mem i hf)

theorem last?_eq_none {items : List Item} {key : String} (h : Lacks items key) : last? items key = none := by
  induction items with
  | nil => rfl
  | cons i r ih =>
    have rest : last? r key = none := ih h.tail
    cases i with
    | text s => exact rest
    | flag f spelling value => rw [last?, rest, if_neg (h f spelling value List.mem_cons_self).symm]; rfl

theorem exists_of_last? {items : List Item} {key : String} {v : Value} (h : last? items key = some v) :
    ∃ f spelling value, flag f spelling value ∈ items ∧ f.key = key ∧ v = stored value := by
  induction items with
  | nil => cases h
  | cons i r ih =>
    have later (h : last? r key = some v) :
        ∃ f spelling value, flag f spelling value ∈ i :: r ∧ f.key = key ∧ v = stored value := by
      obtain ⟨f, spelling, value, hf, same⟩ := ih h
      exact ⟨f, spelling, value, List.mem_cons_of_mem i hf, same⟩
    cases i with
    | text s => exact later h
    | flag f spelling value =>
      rw [last?, Option.or_eq_some_iff] at h
      obtain h | ⟨-, h⟩ := h
      · exact later h
      · split at h <;> cases h
        rename_i same
        exact ⟨f, spelling, value, List.mem_cons_self, same.symm, rfl⟩

theorem get?_entries {ps : List Positional} {key : String} (other : ∀ p ∈ ps, p.name ≠ key) (t : Table Value)
    (items : List Item) : (t.insertAll (entries ps items)).get? key = (last? items key).or (t.get? key) := by
  -- for every table, as an item is stored in what the ones before it have left, and a text uses up a positional
  induction items generalizing ps t with
  | nil => cases ps <;> rfl
  | cons i r ih =>
    cases i with
    | text s =>
      cases ps with
      | nil => exact ih other t
      | cons p ps =>
        obtain ⟨first, rest⟩ := List.forall_mem_cons.1 other
        rw [entries, Table.insertAll_cons, ih rest, Table.get?_insert, if_neg first.symm, last?]
    | flag f spelling value =>
      rw [entries, Table.insertAll_cons, ih other, Table.get?_insert, last?, Option.or_assoc]
      by_cases same : key = f.key <;> simp [same]

theorem get?_entries_text {ps : List Positional} {items : List Item} (distinct : (ps.map Positional.name).Nodup)
    (other : ∀ p ∈ ps, Lacks items p.name) (enough : (texts items).length = ps.length) (t : Table Value) :
    ps.Forall₂ (fun p w => (t.insertAll (entries ps items)).get? p.name = some (.text w)) (texts items) := by
  induction items generalizing ps t with
  | nil =>
    obtain rfl : ps = [] := List.length_eq_zero_iff.1 enough.symm
    exact .nil
  | cons i r ih =>
    have fewer : ∀ p ∈ ps, Lacks r p.name := fun p hp => (other p hp).tail
    cases i with
    | text s =>
      cases ps with
      | nil => cases enough
      | cons p ps =>
        obtain ⟨new, rest⟩ := List.nodup_cons.1 distinct
        obtain ⟨first, later⟩ := List.forall_mem_cons.1 fewer
        refine .cons ?_ (ih rest later (Nat.succ.inj enough) _)
        rw [entries, Table.insertAll_cons, get?_entries (fun q hq same => new (List.mem_map.2 ⟨q, hq, same⟩)),
          last?_eq_none first, Table.get?_insert, if_pos rfl]
        rfl
    | flag f spelling value =>
      simp only [entries, Table.insertAll_cons]
      exact ih distinct fewer enough _

end Item

/-- Flags that are told apart by their spellings, each with a dash in front, and positionals that take one text. -/
structure Grammar.Clear (g : Grammar) : Prop where
  spellings : (g.flags.flatMap Flag.spellings).Nodup
  dashed : ∀ f ∈ g.flags, ∀ s ∈ f.spellings, s.toList.head? = some '-' ∧ s ≠ "--"
  single : ∀ p ∈ g.positionals, p.arity = .one

namespace Grammar

variable {g : Grammar} {f : Flag} {s w : String}

theorem flag?_eq_some (distinct : (g.flags.flatMap Flag.spellings).Nodup) (known : f ∈ g.flags)
    (spelled : s ∈ f.spellings) : g.flag? s = some f := by
  have keys : (⟨g.spellings⟩ : Table Flag).keys = g.flags.flatMap Flag.spellings := by
    simp [Table.keys, Grammar.spellings, List.map_flatMap, Function.comp_def]
  have there : (s, f) ∈ (⟨g.spellings⟩ : Table Flag).entries :=
    List.mem_flatMap.2 ⟨f, known, List.mem_map_of_mem spelled⟩
  rw [← keys] at distinct
  exact (Table.mem_entries_iff distinct).1 there

theorem mark_text (h : IsText w) : g.mark w = .ok .word := by
  unfold mark
  exact if_pos h

theorem mark_flag (dashed : s.toList.head? = some '-') (known : g.flag? s = some f) :
    g.mark s = .ok (.flag ⟨f, s, none⟩) := by
  unfold mark
  dsimp only
  rw [if_neg (by simpa using dashed), known]
  rfl

theorem marks_cons {m : Mark} (h : g.mark w = .ok m) (other : w ≠ "--") (r : List String) :
    g.marks (w :: r) = (g.marks r).map ((w, m) :: ·) := by
  rw [marks, if_neg other, h]
  cases g.marks r <;> rfl

theorem marks_items (clear : g.Clear) {items : List Item} (fits : ∀ i ∈ items, i.Fits g) :
    g.marks (items.flatMap Item.words) = .ok (items.flatMap Item.marked) := by
  induction items with
  | nil => rfl
  | cons i r ih =>
    obtain ⟨first, rest⟩ := List.forall_mem_cons.1 fits
    have rest := ih rest
    cases first with
    | text value =>
      rw [List.flatMap_cons, Item.words, List.singleton_append, marks_cons (mark_text value) value.ne_dashes, rest]
      rfl
    | switch known spelled takes =>
      obtain ⟨dashed, other⟩ := clear.dashed _ known _ spelled
      have mark := mark_flag dashed (flag?_eq_some clear.spellings known spelled)
      rw [List.flatMap_cons, Item.words, Option.toList_none, List.singleton_append, marks_cons mark other, rest]
      rfl
    | setting known spelled takes value =>
      obtain ⟨dashed, other⟩ := clear.dashed _ known _ spelled
      have mark := mark_flag dashed (flag?_eq_some clear.spellings known spelled)
      rw [List.flatMap_cons, Item.words, Option.toList_some, List.cons_append, List.singleton_append,
        marks_cons mark other, marks_cons (mark_text value) value.ne_dashes, rest]
      rfl

end Grammar

section

variable {as : List Arity} {ms : List Mark}

def Joined (ms : List Mark) : Prop := ms.head? ≠ some .dashes

theorem lengths_word (joined : Joined ms) : Arity.one.lengths (.word :: ms) = [1] := by
  obtain _ | ⟨m, r⟩ := ms
  · rfl
  · cases m <;> first | rfl | exact absurd rfl joined

theorem lengths_other (joined : Joined ms) (other : ms.head? ≠ some .word) : Arity.one.lengths ms = [] := by
  obtain _ | ⟨m, r⟩ := ms
  · rfl
  · cases m <;> first | rfl | exact absurd rfl joined | exact absurd rfl other

theorem share?_one (joined : Joined ms) :
    share? (.one :: as) (.word :: ms) = (share? as ms).map (1 :: ·) := by
  rw [share?, lengths_word joined]
  simp

theorem shares_word (joined : Joined ms) : shares (.one :: as) (.word :: ms) = 1 :: shares as ms := by
  have each (i : Nat) : share? ((Arity.one :: as).take (i + 1)) (.word :: ms) =
      (share? (as.take i) ms).map (1 :: ·) := by
    rw [List.take_succ_cons, share?_one joined]
  have some : ((List.range (as.length + 1)).reverse.findSome? fun i => share? (as.take i) ms).isSome := by
    rw [List.findSome?_isSome_iff]
    exact ⟨0, by simp, rfl⟩
  obtain ⟨ns, found⟩ := Option.isSome_iff_exists.1 some
  rw [shares, shares, found, List.length_cons, List.range_succ_eq_map, List.reverse_cons, ← List.map_reverse,
    List.findSome?_append, List.findSome?_map]
  have all : (List.range (as.length + 1)).reverse.findSome?
      ((fun i => share? ((Arity.one :: as).take i) (.word :: ms)) ∘ Nat.succ) = Option.some (1 :: ns) := by
    simp only [Function.comp_def, Nat.succ_eq_add_one, each]
    rw [show (fun i => (share? (as.take i) ms).map (1 :: ·)) =
      Option.map (1 :: ·) ∘ fun i => share? (as.take i) ms from rfl, ← List.map_findSome?, found]
    rfl
  rw [all]
  rfl

theorem shares_other (single : ∀ a ∈ as, a = .one) (joined : Joined ms) (other : ms.head? ≠ some .word) :
    shares as ms = [] := by
  rw [shares]
  cases found : (List.range (as.length + 1)).reverse.findSome? fun i => share? (as.take i) ms with
  | none => rfl
  | some ns =>
    obtain ⟨i, -, shared⟩ := List.exists_of_findSome?_eq_some found
    cases taken : as.take i with
    | nil =>
      rw [taken] at shared
      exact (Option.some.inj shared).symm
    | cons a r =>
      have first : a ∈ as.take i := taken ▸ List.mem_cons_self
      rw [taken, single a (List.mem_of_mem_take first), share?, lengths_other joined other] at shared
      cases shared

end

namespace Reading

variable {g : Grammar} {s : Reading} {p : Positional} {ps : List Positional} {w : String} {r : List (String × Mark)}

theorem gathered_text (h : IsText w) : gathered [w] = .text w := by
  rw [gathered, worth, List.erase_cons_tail (by simpa using h.ne_dashes), List.erase_nil]

def fill (s : Reading) (p : Positional) (ps : List Positional) (w : String) : Reading :=
  { s with left := ps }.put p.name (.text w)

theorem takePositionals_word (left : s.left = p :: ps) (single : p.arity = .one) (text : IsText w)
    (joined : Joined (r.map Prod.snd)) :
    s.takePositionals ((w, .word) :: r) = ((s.fill p ps w).takePositionals r).map fun (s, n) => (s, n + 1) := by
  have shared : shares (s.left.map Positional.arity) (((w, Mark.word) :: r).map Prod.snd) =
      1 :: shares (ps.map Positional.arity) (r.map Prod.snd) := by
    rw [left, List.map_cons, List.map_cons, single, shares_word joined]
  rw [takePositionals, shared, List.map_cons, takePositionals.go, left]
  simp only [takePositional, single, List.take_succ_cons, List.take_zero, gathered_text text, Except.pure_eq,
    Except.ok_bind, List.drop_succ_cons, List.drop_zero]
  change (takePositionals.go (s.fill p ps w) _ _ >>= _) =
    Except.map _ (takePositionals.go (s.fill p ps w) (shares (ps.map Positional.arity) _) _)
  cases takePositionals.go (s.fill p ps w) (shares (ps.map Positional.arity) (r.map Prod.snd)) (r.map Prod.fst) with
  | error stop => rfl
  | ok taken => exact congrArg (fun n => Except.ok (taken.1, n)) (Nat.add_comm 1 taken.2)

theorem takePositionals_other (single : ∀ p ∈ s.left, p.arity = .one) (joined : Joined (r.map Prod.snd))
    (other : (r.map Prod.snd).head? ≠ some .word) : s.takePositionals r = .ok (s, 0) := by
  rw [takePositionals, shares_other (List.forall_mem_map.2 single) joined other]
  rfl

theorem takePositionals_done (left : s.left = []) : s.takePositionals r = .ok (s, 0) := by
  rw [takePositionals, left]
  rfl

theorem run_flagless (flags : r.any isFlag = false) : s.run g r = s.finish r := by
  rw [run.eq_def, flags]
  rfl

theorem run_taken {q : Reading} (flags : r.any isFlag) (taken : s.takePositionals ((w, .word) :: r) =
    (q.takePositionals r).map fun (s, n) => (s, n + 1)) :
    s.run g ((w, .word) :: r) = q.takePositionals r >>= fun (s, n) => s.run g (r.drop n) := by
  have marks : ((w, Mark.word) :: r).any isFlag = r.any isFlag := rfl
  rw [run.eq_def, marks, flags]
  change (s.takePositionals ((w, .word) :: r) >>= _) = _
  rw [taken]
  cases q.takePositionals r <;> rfl

theorem joined_of_forall (plain : ∀ e ∈ r, e.2 ≠ .dashes) : Joined (r.map Prod.snd) := by
  obtain _ | ⟨e, r⟩ := r
  · simp [Joined]
  · exact fun same => plain e List.mem_cons_self (Option.some.inj same)

theorem takePositionals_run (single : ∀ p ∈ s.left, p.arity = .one) (plain : ∀ e ∈ r, e.2 ≠ .dashes)
    (text : ∀ e ∈ r, e.2 = .word → IsText e.1) (flags : r.any isFlag) :
    (s.takePositionals r >>= fun (s, n) => s.run g (r.drop n)) = s.run g r := by
  obtain _ | ⟨⟨w, m⟩, r⟩ := r
  · cases flags
  have joined := joined_of_forall plain
  cases m with
  | dashes => exact absurd rfl joined
  | flag x =>
    rw [takePositionals_other single joined (by simp)]
    rfl
  | unknown =>
    rw [takePositionals_other single joined (by simp)]
    rfl
  | word =>
    cases left : s.left with
    | nil =>
      rw [takePositionals_done left]
      rfl
    | cons p ps =>
      have later : Joined (r.map Prod.snd) := joined_of_forall fun e he => plain e (List.mem_cons_of_mem _ he)
      have taken := takePositionals_word left (single p (left ▸ List.mem_cons_self))
        (text (w, .word) List.mem_cons_self rfl) later
      rw [run_taken (show r.any isFlag from flags) taken, taken]
      cases (s.fill p ps w).takePositionals r <;> rfl

theorem run_word (left : s.left = p :: ps) (single : ∀ p ∈ s.left, p.arity = .one) (plain : ∀ e ∈ r, e.2 ≠ .dashes)
    (text : ∀ e ∈ r, e.2 = .word → IsText e.1) (first : IsText w) :
    s.run g ((w, .word) :: r) = (s.fill p ps w).run g r := by
  have taken := takePositionals_word left (single p (left ▸ List.mem_cons_self)) first (joined_of_forall plain)
  have rest : ∀ q ∈ (s.fill p ps w).left, q.arity = .one := fun q hq => single q (left ▸ List.mem_cons_of_mem p hq)
  cases flags : r.any isFlag with
  | false =>
    have marks : ((w, Mark.word) :: r).any isFlag = false := flags
    rw [run_flagless marks, run_flagless flags, finish, finish, taken]
    cases (s.fill p ps w).takePositionals r <;> rfl
  | true => rw [run_taken flags taken, takePositionals_run rest plain text flags]

theorem run_flag {x : Sighting} : s.run g ((w, .flag x) :: r) =
    takeSighting g s x r >>= fun (s, used) => s.run g (r.drop (if used then 1 else 0)) := by
  rw [run.eq_def, show ((w, Mark.flag x) :: r).any isFlag = true from rfl]
  rfl

theorem run_switch {f : Flag} (takes : f.intake = .nothing) :
    s.run g ((w, .flag ⟨f, w, none⟩) :: r) = (s.put f.key (.bool true)).run g r := by
  have given (next : Option String) : g.cluster next f w none = .ok ([(f, none)], false) := by
    rw [Grammar.cluster.eq_def, Flag.takesValue, takes]
    rfl
  rw [run_flag]
  simp only [takeSighting, Option.map_none, given, List.foldlM_cons, List.foldlM_nil, takeFlag, takes]
  rfl

theorem run_setting {f : Flag} {v : String} (takes : f.intake = .text) (text : IsText v) :
    s.run g ((w, .flag ⟨f, w, none⟩) :: (v, .word) :: r) = (s.put f.key (.text v)).run g r := by
  have given : g.cluster (some v) f w none = .ok ([(f, some v)], true) := by
    rw [Grammar.cluster.eq_def, Flag.takesValue, takes]
    rfl
  rw [run_flag]
  simp only [takeSighting, Option.map_none, given, List.foldlM_cons, List.foldlM_nil, takeFlag, takes,
    Option.toList_some, gathered_text text]
  rfl

theorem marked_plain {items : List Item} (fits : ∀ i ∈ items, i.Fits g) :
    ∀ e ∈ items.flatMap Item.marked, e.2 ≠ .dashes ∧ (e.2 = .word → IsText e.1) := by
  intro e he
  obtain ⟨i, hi, inside⟩ := List.mem_flatMap.1 he
  cases fits i hi with
  | text value =>
    obtain rfl := List.mem_singleton.1 inside
    exact ⟨nofun, fun _ => value⟩
  | switch =>
    obtain rfl := List.mem_singleton.1 inside
    exact ⟨nofun, nofun⟩
  | setting _ _ _ value =>
    obtain rfl | rfl : e = _ ∨ e = _ := by simpa [Item.marked] using inside
    · exact ⟨nofun, nofun⟩
    · exact ⟨nofun, fun _ => value⟩

theorem run_items {items : List Item} (fits : ∀ i ∈ items, i.Fits g) (single : ∀ p ∈ s.left, p.arity = .one)
    (enough : (Item.texts items).length = s.left.length) :
    s.run g (items.flatMap Item.marked) =
      .ok { s with values := s.values.insertAll (Item.entries s.left items), left := [] } := by
  -- the state varies: each text takes the first of the positionals that are left, a flag takes none
  induction items generalizing s with
  | nil =>
    have left : s.left = [] := List.length_eq_zero_iff.1 enough.symm
    rw [List.flatMap_nil, run_flagless rfl, finish, takePositionals_done left, Except.ok_bind, left]
    simp [Item.entries, Table.insertAll, left]
  | cons i r ih =>
    obtain ⟨first, rest⟩ := List.forall_mem_cons.1 fits
    cases first with
    | @text t value =>
      cases left : s.left with
      | nil =>
        rw [left] at enough
        cases enough
      | cons p ps =>
        have plain := marked_plain rest
        rw [left, Item.texts] at enough
        rw [left] at single
        rw [List.flatMap_cons, Item.marked, List.singleton_append, run_word left (left ▸ single)
          (fun e he => (plain e he).1) (fun e he => (plain e he).2) value,
          ih rest (fun q hq => single q (List.mem_cons_of_mem p hq)) (Nat.succ.inj enough)]
        rfl
    | @switch f spelling _ _ takes =>
      rw [List.flatMap_cons, Item.marked, Option.toList_none, List.map_nil, List.singleton_append, run_switch takes,
        ih (s := s.put f.key (.bool true)) rest single enough, Item.entries, Table.insertAll_cons]
      rfl
    | @setting f spelling v _ _ takes value =>
      rw [List.flatMap_cons, Item.marked, Option.toList_some, List.map_cons, List.map_nil, List.cons_append,
        List.singleton_append, run_setting takes value, ih (s := s.put f.key (.text v)) rest single enough,
        Item.entries, Table.insertAll_cons]
      rfl

end Reading

def Grammar.defaultEntries (g : Grammar) : List (String × Value) :=
  (g.positionals.map fun p => (p.name, p.default)) ++ g.flags.filterMap fun f => f.default.map fun d => (f.key, d)

def keep (t : Table Value) (e : String × Value) : Table Value := if t.contains e.1 then t else t.insert e.1 e.2

theorem nodup_keys_foldl_keep {t : Table Value} (distinct : t.keys.Nodup) (es : List (String × Value)) :
    (es.foldl keep t).keys.Nodup := by
  induction es generalizing t with
  | nil => exact distinct
  | cons e r ih =>
    refine ih ?_
    unfold keep
    split
    · exact distinct
    · exact Table.nodup_keys_insert distinct _ _

theorem get?_foldl_keep (t : Table Value) (es : List (String × Value)) (k : String) :
    (es.foldl keep t).get? k = (t.get? k).or (es.lookup k) := by
  induction es generalizing t with
  | nil => simp
  | cons e r ih =>
    rw [List.foldl_cons, ih, keep, List.lookup_cons]
    split
    · rename_i there
      obtain ⟨v, kept⟩ := Table.exists_get?_of_mem_keys (t := t) (k := e.1) (by simpa [Table.contains] using there)
      by_cases same : k = e.1
      · simp [same, kept]
      · simp [beq_false_of_ne same]
    · rename_i new
      rw [Table.get?_insert]
      by_cases same : k = e.1
      · have absent : t.get? e.1 = none := by
          cases found : t.get? e.1 with
          | none => rfl
          | some v => exact absurd (List.contains_iff_mem.2 (Table.mem_keys_of_mem (Table.mem_of_get? found))) new
        simp [same, absent]
      · simp [same, beq_false_of_ne same]

theorem Grammar.nodup_keys_defaults (g : Grammar) : g.defaults.keys.Nodup :=
  nodup_keys_foldl_keep (t := {}) List.nodup_nil g.defaultEntries

theorem Grammar.get?_defaults (g : Grammar) (k : String) : g.defaults.get? k = g.defaultEntries.lookup k :=
  get?_foldl_keep {} g.defaultEntries k

/-- What is put together from items is read as their entries on top of the defaults. -/
theorem Grammar.read_items {g : Grammar} (clear : g.Clear) {items : List Item} (fits : ∀ i ∈ items, i.Fits g)
    (enough : (Item.texts items).length = g.positionals.length) :
    g.read (items.flatMap Item.words) =
      .ok { values := g.defaults.insertAll (Item.entries g.positionals items), left := [] } := by
  rw [Grammar.read, marks_items clear fits]
  exact Reading.run_items fits clear.single enough

end PhpScaffold.CommandLine
