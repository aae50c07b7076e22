import PhpScaffold.Proofs.Name.Expression

namespace PhpScaffold.Name

variable {n x s : String} {segments : List String} {t : List Char}

instance (t : List Char) : Decidable (IsIdentifier t) :=
  decidable_of_iff (t.head?.any isHead ∧ ∀ d ∈ t, isTail d) <| by
    constructor
    · intro ⟨head, tail⟩
      cases t with
      | nil => cases head
      | cons c r => exact ⟨c, r, rfl, head, (List.forall_mem_cons.1 tail).2⟩
    · intro h
      obtain ⟨c, r, rfl, head, -⟩ := id h
      exact ⟨head, h.isTail⟩

theorem ofSegments_append {others : List String} (filled : segments ≠ []) (further : others ≠ []) :
    ofSegments (segments ++ others) = ofSegments segments ++ "\\" ++ ofSegments others :=
  String.intercalate_append_of_ne_nil filled further

theorem ofSegments_concat (filled : segments ≠ []) (x : String) :
    ofSegments (segments ++ [x]) = ofSegments segments ++ "\\" ++ x := by
  rw [ofSegments_append filled (by simp), ofSegments, ofSegments, String.intercalate_singleton]

theorem takeTail_flatMap (within : ∀ d ∈ t, isTail d) (h : ∀ s ∈ segments, IsIdentifier s.toList) :
    takeTail (t ++ segments.flatMap ('\\' :: ·.toList)) = (t ++ segments.flatMap ('\\' :: ·.toList), []) := by
  induction segments generalizing t with
  | nil => simpa using takeTail_of_forall within
  | cons s r ih =>
    obtain ⟨⟨c, u, whole, head, tail⟩, rest⟩ := List.forall_mem_cons.1 h
    induction t with
    | nil =>
      rw [List.nil_append, List.flatMap_cons, whole, List.cons_append, List.cons_append, takeTail, if_pos head,
        ih tail rest]
    | cons d t further =>
      obtain ⟨tailed, within⟩ := List.forall_mem_cons.1 within
      rw [List.cons_append, takeTail_cons (ne_separator_of_isTail tailed), if_pos tailed, further within]

theorem isWhole_ofSegments (filled : segments ≠ []) (h : ∀ s ∈ segments, IsIdentifier s.toList) :
    IsWhole (ofSegments segments).toList := by
  obtain ⟨s, r, rfl⟩ := List.exists_cons_of_ne_nil filled
  obtain ⟨⟨c, u, whole, head, tail⟩, rest⟩ := List.forall_mem_cons.1 h
  rw [toList_ofSegments, whole, List.cons_append]
  exact (isWhole_of_tail head (takeTail_flatMap tail rest)).1

theorem names_of_isWhole (h : IsWhole n.toList) : names n = [n] := by
  rw [names_eq, tokens_of_takeName? h, tokens_nil]
  simp [Token.name?]

structure EndsIn (n x : String) : Prop where
  spelled : ∃ front, front ≠ [] ∧ (∀ s ∈ front, IsIdentifier s.toList) ∧ n = ofSegments (front ++ [x])
  last : IsIdentifier x.toList

namespace EndsIn

theorem exists_segments (h : EndsIn n x) :
    ∃ segments, 2 ≤ segments.length ∧ (∀ s ∈ segments, IsIdentifier s.toList) ∧ n = ofSegments segments := by
  obtain ⟨front, filled, all, rfl⟩ := h.spelled
  refine ⟨front ++ [x], ?_, List.forall_mem_append.2 ⟨all, List.forall_mem_singleton.2 h.last⟩, rfl⟩
  have := List.length_pos_iff.2 filled
  rw [List.length_append, List.length_singleton]
  omega

theorem isWhole (h : EndsIn n x) : IsWhole n.toList := by
  obtain ⟨segments, several, all, rfl⟩ := h.exists_segments
  exact isWhole_ofSegments (by rintro rfl; simp at several) all

theorem spells (h : EndsIn n x) : ∃ segments, Spells segments n ∧ n = ofSegments segments := by
  obtain ⟨segments, several, all, rfl⟩ := h.exists_segments
  exact ⟨segments, ⟨several, fun s hs => (all s hs).isSegment, .inl rfl⟩, rfl⟩

theorem relative (h : EndsIn n x) : relative n = n := by
  obtain ⟨segments, spelled, rfl⟩ := h.spells
  exact spelled.relative_eq

theorem qualifiedNames (h : EndsIn n x) : qualifiedNames n = [n] := by
  obtain ⟨segments, spelled, -⟩ := h.spells
  rw [Name.qualifiedNames, names_of_isWhole h.isWhole, List.filter_cons_of_pos spelled.isQualified_eq, List.filter_nil,
    List.map_singleton, h.relative]

theorem splitLast (h : EndsIn n x) : ∃ scope, scope ≠ "" ∧ n = scope ++ "\\" ++ x ∧ splitLast n = (scope, x) := by
  obtain ⟨front, filled, all, rfl⟩ := h.spelled
  refine ⟨ofSegments front, ?_, ofSegments_concat filled x, ?_⟩
  · intro empty
    have whole := isWhole_ofSegments filled all
    rw [empty] at whole
    exact absurd whole (by decide)
  · rw [ofSegments_concat filled, splitLast_append _ h.last.isSegment.2]

theorem bare (h : EndsIn n x) : Name.bare n = n := by
  have front := h.relative
  rw [Name.relative, Text.trimStart, ← String.toList_inj, String.toList_ofList] at front
  obtain ⟨scope, -, whole, -⟩ := h.splitLast
  obtain ⟨u, c, ends⟩ : ∃ u c, x.toList = u ++ [c] := by
    obtain ⟨c, r, written, -, -⟩ := h.last
    exact ⟨_, _, (List.dropLast_concat_getLast (written ▸ List.cons_ne_nil c r)).symm⟩
  have tailed : isTail c := h.last.isTail c (by simp [ends])
  have written : n.toList = (scope ++ "\\").toList ++ u ++ [c] := by
    rw [whole, String.toList_append, ends, List.append_assoc]
  rw [Name.bare, Text.trim, Text.trimBoth, front, written, Text.dropEndWhile_append_singleton,
    if_neg (by simp [separator, ne_separator_of_isTail tailed]), ← written, String.ofList_toList]

theorem scope_short (h : EndsIn n x) : (scope n, short n) = Name.splitLast n := by
  rw [scope, short, h.bare]

theorem short (h : EndsIn n x) : short n = x := by
  obtain ⟨scope, -, -, cut⟩ := h.splitLast
  exact congrArg Prod.snd (h.scope_short.trans cut)

end EndsIn

end PhpScaffold.Name
