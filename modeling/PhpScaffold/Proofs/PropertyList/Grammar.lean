import PhpScaffold.PropertyList
import PhpScaffold.Proofs.Table
import Mathlib.Data.List.Infix

namespace PhpScaffold.PropertyList

open Text (trim isBlank)

def level (t : List Char) : Int :=
  t.countP (fun c => c = '<' ∨ c = '(') - t.countP (fun c => c = '>' ∨ c = ')')

def placed (t : List Char) : List (Char × List Char) := t.zip t.inits

def free (c : Char) (e : Char × List Char) : Bool := e.1 = c ∧ level e.2 = 0

def pieces (t : List Char) : List (List Char) := ((placed t).splitOnP (free ',')).map (List.map Prod.fst)

/-- What stands before the first free colon. -/
def front? (t : List Char) : Option (List Char) := ((placed t).find? (free ':')).map Prod.snd

def property? (t : List Char) : Option (String × String) :=
  (front? t).bind fun front =>
    let name := trim isBlank (.ofList front)
    let type := trim isBlank (.ofList (t.drop (front.length + 1)))
    if name = "" ∨ type = "" then none else some (name, type)

variable {t p : List Char} {c : Char} {s : State}

theorem level_append_singleton (t : List Char) (c : Char) : level (t ++ [c]) = level t + nesting c := by
  have apart : ¬((c = '<' ∨ c = '(') ∧ (c = '>' ∨ c = ')')) := by
    rintro ⟨rfl | rfl, h⟩ <;> revert h <;> decide
  simp only [level, nesting, List.countP_append, List.countP_singleton, decide_eq_true_eq]
  split <;> split <;> first | omega | exact absurd ⟨‹_›, ‹_›⟩ apart

theorem placed_append_singleton (t : List Char) (c : Char) : placed (t ++ [c]) = placed t ++ [(c, t)] := by
  unfold placed
  induction t with
  | nil => rfl
  | cons d r ih =>
    simp only [List.cons_append, List.inits_cons, List.zip_cons_cons, List.zip_map_right, ih]
    simp

theorem splitOnP_append_singleton {α : Type} {q : α → Bool} {as before : List α} {done : List (List α)} (a : α)
    (h : as.splitOnP q = done ++ [before]) :
    (as ++ [a]).splitOnP q = if q a then done ++ [before, []] else done ++ [before ++ [a]] := by
  by_cases cuts : q a
  · simp [List.splitOnP_append_cons as [] cuts, h, cuts]
  rw [if_neg cuts]
  induction as generalizing done before with
  | nil =>
    obtain ⟨rfl, rfl⟩ : done = [] ∧ before = [] := by simpa [List.append_eq_singleton_iff] using h.symm
    simp [List.splitOnP_cons_eq_if_modifyHead, cuts]
  | cons b r ih =>
    obtain none | ⟨above, last, rest⟩ := List.eq_nil_or_concat (r.splitOnP q)
    · exact absurd none (List.splitOnP_ne_nil q r)
    rw [List.concat_eq_append] at rest
    rw [List.splitOnP_cons_eq_if_modifyHead, rest] at h
    rw [List.cons_append, List.splitOnP_cons_eq_if_modifyHead, ih rest]
    by_cases first : q b
    · rw [if_pos first] at h ⊢
      obtain ⟨rfl, same⟩ := List.append_inj' (show ([] :: above) ++ [last] = done ++ [before] from h) rfl
      simp [List.singleton_inj.1 same]
    · rw [if_neg first] at h ⊢
      cases above with
      | nil =>
        obtain ⟨rfl, same⟩ := List.append_inj' (show [] ++ [b :: last] = done ++ [before] from h) rfl
        simp [← List.singleton_inj.1 same]
      | cons l ls =>
        obtain ⟨rfl, same⟩ := List.append_inj' (show ((b :: l) :: ls) ++ [last] = done ++ [before] from h) rfl
        simp [List.singleton_inj.1 same]

theorem pieces_append_singleton {done : List (List Char)} (c : Char) (h : pieces t = done ++ [p]) :
    pieces (t ++ [c]) = if c = ',' ∧ level t = 0 then done ++ [p, []] else done ++ [p ++ [c]] := by
  obtain ⟨above, last, cut, rfl, same⟩ := List.map_eq_append_iff.1 h
  obtain ⟨before, rfl, rfl⟩ := List.map_eq_singleton_iff.1 same
  rw [pieces, placed_append_singleton, splitOnP_append_singleton (c, t) cut]
  by_cases ends : c = ',' ∧ level t = 0 <;> simp [free, ends]

theorem front?_append_singleton (t : List Char) (c : Char) :
    front? (t ++ [c]) = (front? t).or (if c = ':' ∧ level t = 0 then some t else none) := by
  rw [front?, front?, placed_append_singleton, List.find?_append, Option.map_or]
  by_cases ends : c = ':' ∧ level t = 0 <;> simp [free, ends]

theorem filterMap_singleton (p : List Char) : [p].filterMap property? = (property? p).toList := by
  cases h : property? p <;> simp [h]

namespace State

inductive Holds (s : State) (p : List Char) : Prop
  | unnamed (colon : front? p = none) (name : s.name = none) (pending : s.pending.reverse = p)
  | named (front : List Char) (colon : front? p = some front) (name : s.name = some (trim isBlank (.ofList front)))
      (pending : p = front ++ ':' :: s.pending.reverse)

structure Reads (s : State) (t : List Char) : Prop where
  piece : ∃ done p, pieces t = done ++ [p] ∧ level p = level t ∧ s.Holds p ∧
    s.found = Table.ofList (done.filterMap property?)
  depth : s.depth = level t

theorem Holds.flush (h : s.Holds p) : s.flush = { depth := s.depth, found := s.found.insertAll (property? p).toList } := by
  cases h with
  | unnamed colon name _ => simp [State.flush, name, property?, colon, Table.insertAll]
  | named front colon name pending =>
    have type : p.drop (front.length + 1) = s.pending.reverse := by simp [pending]
    simp only [State.flush, name, property?, colon, type, Option.bind_some, pendingText, Bool.or_eq_true,
      String.isEmpty_iff]
    split <;> rfl

theorem Reads.step (h : s.Reads t) (c : Char) : (s.step c).Reads (t ++ [c]) := by
  obtain ⟨⟨done, p, cut, balanced, holds, found⟩, depth⟩ := h
  have cuts := pieces_append_singleton c cut
  have leveled : level (p ++ [c]) = level (t ++ [c]) := by simp only [level_append_singleton, balanced]
  have deeper : s.depth + nesting c = level (t ++ [c]) := by rw [level_append_singleton, depth]
  have colons := front?_append_singleton p c
  unfold State.step
  split
  case isTrue ends =>
    obtain ⟨rfl, even, name⟩ := ends
    have flat : nesting ':' = 0 := by decide
    cases holds with
    | named _ _ given _ => cases name.symm.trans given
    | unnamed colon _ pending =>
      rw [colon, if_pos ⟨rfl, by rw [balanced, ← depth, even]⟩] at colons
      refine ⟨⟨done, p ++ [':'], cuts, leveled, .named p colons ?_ rfl, found⟩, by simpa [flat] using deeper⟩
      simp [pendingText, pending]
  case isFalse stays =>
    split
    case isTrue ends =>
      obtain ⟨rfl, even⟩ := ends
      have flat : nesting ',' = 0 := by decide
      rw [if_pos ⟨rfl, by rw [← depth, even]⟩] at cuts
      have level : level (t ++ [',']) = 0 := by rw [← deeper, flat, even, Int.add_zero]
      refine ⟨⟨done ++ [p], [], by simpa using cuts, level.symm, ?_, ?_⟩, ?_⟩
      · rw [holds.flush]
        exact .unnamed rfl rfl rfl
      · rw [holds.flush, List.filterMap_append, filterMap_singleton, Table.ofList, Table.insertAll_append]
        exact congrArg (Table.insertAll · _) found
      · rw [holds.flush, level, even]
    case isFalse within =>
      have same : level t = s.depth := depth.symm
      rw [same, if_neg within] at cuts
      refine ⟨⟨done, p ++ [c], cuts, leveled, ?_, found⟩, deeper⟩
      cases holds with
      | unnamed colon name pending =>
        rw [colon, if_neg fun ends => stays ⟨ends.1, by rw [depth, ← balanced, ends.2], name⟩] at colons
        exact .unnamed colons name (by simp [pending])
      | named front colon name pending =>
        rw [colon, Option.some_or] at colons
        exact .named front colons name (by simp [pending])

theorem Reads.foldl (t : List Char) : (t.foldl State.step {}).Reads t := by
  induction t using List.reverseRecOn with
  | nil => exact ⟨⟨[], [], rfl, rfl, .unnamed rfl rfl rfl, rfl⟩, rfl⟩
  | append_singleton r c ih =>
    rw [List.foldl_append]
    exact ih.step c

end State

/-- A name stands where it first comes up, with the type that it comes with last. -/
theorem parse_eq_ofList (text : String) :
    let entries := (pieces text.toList).filterMap property?
    parse text = Table.ofList entries ∧ (parse text).keys = (entries.map Prod.fst).eraseDups ∧
      ∀ name, (parse text).get? name = entries.reverse.lookup name := by
  intro entries
  have whole : parse text = Table.ofList entries := by
    obtain ⟨done, p, cut, -, holds, found⟩ := (State.Reads.foldl text.toList).piece
    rw [parse, holds.flush, found]
    simp only [entries, cut, List.filterMap_append, filterMap_singleton, Table.ofList, Table.insertAll_append]
  rw [whole]
  exact ⟨rfl, Table.keys_ofList entries, Table.get?_ofList entries⟩

example : (parse "a:x>,b:<int,c:d:e,a:f,:g").entries = [("a", "f"), ("c", "d:e")] := by decide +kernel

end PhpScaffold.PropertyList
