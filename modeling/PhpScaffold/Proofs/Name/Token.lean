import PhpScaffold.Proofs.Name

namespace PhpScaffold.Name

/-- A name from its first character to its last. -/
def IsWhole (t : List Char) : Prop := takeName? t = some (t, [])

instance (t : List Char) : Decidable (IsWhole t) := inferInstanceAs (Decidable (_ = _))

variable {c : Char} {t name rest : List Char} {s n : String}

theorem ne_separator_of_isTail (h : isTail c) : c ≠ '\\' := by
  rintro rfl
  exact absurd h (by decide)

theorem ne_separator_of_isHead (h : isHead c) : c ≠ '\\' := by
  rintro rfl
  exact absurd h (by decide)

theorem takeTail_cons (h : c ≠ '\\') (t : List Char) :
    takeTail (c :: t) = if isTail c then (c :: (takeTail t).1, (takeTail t).2) else ([], c :: t) := by
  rw [takeTail.eq_def]
  split
  · simp_all
  · simp_all
  · simp_all

theorem takeTail_takeTail (t : List Char) : takeTail (takeTail t).1 = ((takeTail t).1, []) := by
  fun_induction takeTail t with
  | case1 => rfl
  | case2 c r head name rest tail ih =>
    rw [tail] at ih
    simp [takeTail, head, ih]
  | case3 => rfl
  | case4 c r not tailed name rest tail ih =>
    rw [tail] at ih
    rw [takeTail_cons (ne_separator_of_isTail tailed), if_pos tailed, ih]
  | case5 => rfl

theorem takeName?_cons (h : c ≠ '\\') (t : List Char) :
    takeName? (c :: t) = if isHead c then some (c :: (takeTail t).1, (takeTail t).2) else none := by
  rw [takeName?.eq_def]
  split
  · simp_all
  · simp_all
  · simp_all

theorem isWhole_of_takeName? (h : takeName? t = some (name, rest)) : IsWhole name := by
  unfold takeName? at h
  split at h
  · cases h
  · split at h <;> cases h
    rename_i head
    simp [IsWhole, takeName?, head, takeTail_takeTail]
  · split at h <;> cases h
    rename_i head
    rw [IsWhole, takeName?_cons (ne_separator_of_isHead head), if_pos head, takeTail_takeTail]

theorem isWhole_of_mem_tokens (h : .name name ∈ tokens t) : IsWhole name := by
  fun_induction tokens t with
  | case1 t name' rest taken ih =>
    obtain same | later := List.mem_cons.1 h
    · cases same
      exact isWhole_of_takeName? taken
    · exact ih later
  | case2 => cases h
  | case3 c r none ih =>
    obtain same | later := List.mem_cons.1 h
    · cases same
    · exact ih later

theorem isWhole_of_mem_names (h : n ∈ names s) : IsWhole n.toList := by
  obtain ⟨token, mem, named⟩ := List.mem_filterMap.1 h
  cases token with
  | other c => cases named
  | name t =>
    cases named
    rw [String.toList_ofList]
    exact isWhole_of_mem_tokens mem

theorem IsWhole.exists_tail (h : IsWhole t) :
    ∃ c r, isHead c ∧ takeTail r = (r, []) ∧ (t = c :: r ∨ t = '\\' :: c :: r) := by
  unfold IsWhole takeName? at h
  split at h
  · cases h
  · rename_i c r
    split at h
    · rename_i head
      simp only [Option.some.injEq, Prod.mk.injEq, List.cons.injEq, true_and] at h
      exact ⟨c, r, head, Prod.ext h.1 h.2, .inr rfl⟩
    · cases h
  · rename_i c r _
    split at h
    · rename_i head
      simp only [Option.some.injEq, Prod.mk.injEq, List.cons.injEq, true_and] at h
      exact ⟨c, r, head, Prod.ext h.1 h.2, .inl rfl⟩
    · cases h

theorem relative_of_head {r : List Char} (head : isHead c) (h : n.toList = c :: r ∨ n.toList = '\\' :: c :: r) :
    (relative n).toList = c :: r := by
  have kept : (c :: r).dropWhile (· = separator) = c :: r :=
    List.dropWhile_cons_of_neg (by simp [separator, ne_separator_of_isHead head])
  rw [relative, Text.trimStart, String.toList_ofList]
  obtain same | same := h
  · rw [same, kept]
  · rw [same, List.dropWhile_cons_of_pos (by simp [separator]), kept]

theorem relative_of_mem_qualifiedNames (h : n ∈ qualifiedNames s) : relative n = n ∧ n ≠ "" := by
  obtain ⟨m, found, rfl⟩ := List.mem_map.1 h
  obtain ⟨c, r, head, -, written⟩ := (isWhole_of_mem_names (List.mem_filter.1 found).1).exists_tail
  have cut := relative_of_head head written
  refine ⟨String.toList_inj.1 ?_, ?_⟩
  · rw [relative_of_head head (.inl cut), cut]
  · intro empty
    rw [empty] at cut
    cases cut

def IsIdentifier (t : List Char) : Prop := ∃ c r, t = c :: r ∧ isHead c = true ∧ ∀ d ∈ r, isTail d = true

theorem isTail_of_isHead (h : isHead c) : isTail c := by
  simp only [isHead, isTail, Char.isAlphanum, Bool.or_eq_true] at *
  exact h.imp_left .inl

theorem IsIdentifier.isTail (h : IsIdentifier t) : ∀ d ∈ t, isTail d := by
  obtain ⟨c, r, rfl, head, tail⟩ := h
  exact List.forall_mem_cons.2 ⟨isTail_of_isHead head, tail⟩

theorem IsIdentifier.append {u : List Char} (h : IsIdentifier t) (further : IsIdentifier u) :
    IsIdentifier (t ++ u) := by
  obtain ⟨c, r, rfl, head, tail⟩ := h
  exact ⟨c, r ++ u, rfl, head, List.forall_mem_append.2 ⟨tail, further.isTail⟩⟩

theorem takeTail_segments (t : List Char) :
    ∃ (first : List Char) (segs : List (List Char)),
      (takeTail t).1 = first ++ segs.flatMap ('\\' :: ·) ∧ (∀ d ∈ first, isTail d) ∧
      ∀ s ∈ segs, IsIdentifier s := by
  fun_induction takeTail t with
  | case1 | case3 | case5 => exact ⟨[], [], rfl, by simp, by simp⟩
  | case2 c r head name rest tail ih =>
    obtain ⟨first, segs, whole, within, all⟩ := ih
    rw [tail] at whole
    refine ⟨[], (c :: first) :: segs, by simpa using whole, by simp, ?_⟩
    exact List.forall_mem_cons.2 ⟨⟨c, first, rfl, head, within⟩, all⟩
  | case4 c r not tailed name rest tail ih =>
    obtain ⟨first, segs, whole, within, all⟩ := ih
    rw [tail] at whole
    exact ⟨c :: first, segs, by simpa using whole, List.forall_mem_cons.2 ⟨tailed, within⟩, all⟩

theorem isWhole_of_tail {r : List Char} (head : isHead c) (tail : takeTail r = (r, [])) :
    IsWhole (c :: r) ∧ IsWhole ('\\' :: c :: r) := by
  constructor
  · rw [IsWhole, takeName?_cons (ne_separator_of_isHead head), if_pos head, tail]
  · simp [IsWhole, takeName?, head, tail]

theorem isWhole_relative (h : IsWhole n.toList) : IsWhole (relative n).toList := by
  obtain ⟨c, r, head, tail, written⟩ := h.exists_tail
  rw [relative_of_head head written]
  exact (isWhole_of_tail head tail).1

theorem isWhole_of_mem_qualifiedNames (h : n ∈ qualifiedNames s) : IsWhole n.toList := by
  obtain ⟨m, found, rfl⟩ := List.mem_map.1 h
  exact isWhole_relative (isWhole_of_mem_names (List.mem_filter.1 found).1)

theorem takeTail_of_forall (h : ∀ d ∈ t, isTail d) : takeTail t = (t, []) := by
  induction t with
  | nil => rfl
  | cons d r ih =>
    obtain ⟨tailed, rest⟩ := List.forall_mem_cons.1 h
    rw [takeTail_cons (ne_separator_of_isTail tailed), if_pos tailed, ih rest]

theorem IsIdentifier.isWhole (h : IsIdentifier t) : IsWhole t := by
  obtain ⟨c, r, rfl, head, tail⟩ := h
  exact (isWhole_of_tail head (takeTail_of_forall tail)).1

theorem toList_ofSegments (s : String) (r : List String) :
    (ofSegments (s :: r)).toList = s.toList ++ r.flatMap ('\\' :: ·.toList) := by
  induction r generalizing s with
  | nil => simp [ofSegments]
  | cons u r ih =>
    have further := ih u
    simp only [ofSegments, String.intercalate_cons_cons, String.toList_append] at further ⊢
    rw [further]
    simp

theorem IsIdentifier.isSegment (h : IsIdentifier s.toList) : IsSegment s := by
  obtain ⟨c, r, whole, -, -⟩ := id h
  refine ⟨fun empty => by simp [empty] at whole, fun inside => ?_⟩
  exact ne_separator_of_isTail (h.isTail _ inside) rfl

theorem IsWhole.exists_segments (h : IsWhole n.toList) :
    ∃ segments, segments ≠ [] ∧ (∀ s ∈ segments, IsIdentifier s.toList) ∧ relative n = ofSegments segments ∧
      (n = ofSegments segments ∨ n = "\\" ++ ofSegments segments) := by
  obtain ⟨c, r, head, tail, written⟩ := h.exists_tail
  obtain ⟨first, segs, whole, within, all⟩ := takeTail_segments r
  have name : (ofSegments (.ofList (c :: first) :: segs.map .ofList)).toList = c :: r := by
    rw [tail] at whole
    simpa [toList_ofSegments, List.flatMap_map] using whole.symm
  refine ⟨.ofList (c :: first) :: segs.map .ofList, by simp, ?_, ?_, ?_⟩
  · rw [List.forall_mem_cons, List.forall_mem_map, String.toList_ofList]
    refine ⟨⟨c, first, rfl, head, within⟩, fun s hs => ?_⟩
    rw [String.toList_ofList]
    exact all s hs
  · rw [← String.toList_inj, relative_of_head head written, name]
  · rw [← name] at written
    refine written.imp String.toList_inj.1 fun absolute => String.toList_inj.1 ?_
    rw [absolute]
    simp

end PhpScaffold.Name
