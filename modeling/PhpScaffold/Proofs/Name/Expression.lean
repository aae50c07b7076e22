import PhpScaffold.Proofs.Name.Token

/-! Type expressions piece by piece.  A character that can neither stand in a name nor join two parts of one cuts an
expression in two; an expression without stray backslashes is cut into the same pieces when other names are put in place
of its own. -/

namespace PhpScaffold.Name

def IsGap (c : Char) : Prop := isTail c = false ∧ c ≠ '\\'

instance (c : Char) : Decidable (IsGap c) := inferInstanceAs (Decidable (_ ∧ _))

variable {c : Char} {t u : List Char} {ts : List Token} {n s : String} {f : String → String}

theorem IsGap.not_head (h : IsGap c) : isHead c = false := by
  rw [← Bool.not_eq_true]
  intro head
  have tail := isTail_of_isHead head
  rw [h.1] at tail
  cases tail

theorem takeTail_append_gap (gap : IsGap c) (t u : List Char) :
    takeTail (t ++ c :: u) = ((takeTail t).1, (takeTail t).2 ++ c :: u) := by
  fun_induction takeTail t with
  | case1 =>
    rw [List.nil_append, takeTail_cons gap.2, gap.1]
    rfl
  | case2 d r head name rest tail ih =>
    rw [tail] at ih
    simp [takeTail, head, ih]
  | case3 d r other => simp [takeTail, other]
  | case4 d r not tailed name rest tail ih =>
    rw [tail] at ih
    rw [List.cons_append, takeTail_cons (ne_separator_of_isTail tailed), if_pos tailed, ih]
  | case5 d r lone other =>
    by_cases back : d = '\\'
    · cases r with
      | nil => simp [back, takeTail, gap.not_head]
      | cons e r => exact (lone e r back rfl).elim
    · rw [List.cons_append, takeTail_cons back, if_neg other]

theorem takeName?_append_gap (gap : IsGap c) (t u : List Char) :
    takeName? (t ++ c :: u) = (takeName? t).map fun p => (p.1, p.2 ++ c :: u) := by
  cases t with
  | nil =>
    rw [List.nil_append, takeName?_cons gap.2, gap.not_head]
    rfl
  | cons d r =>
    by_cases back : d = '\\'
    · subst back
      cases r with
      | nil =>
        have stray : isHead '\\' = false := by decide
        simp [takeName?, gap.not_head, stray]
      | cons e r => by_cases head : isHead e <;> simp [takeName?, head, takeTail_append_gap gap]
    · rw [List.cons_append, takeName?_cons back, takeName?_cons back, takeTail_append_gap gap]
      split <;> rfl

theorem tokens_of_takeName? {rest : List Char} (h : takeName? t = some (u, rest)) :
    tokens t = .name u :: tokens rest := by
  rw [tokens.eq_def]
  split
  · rename_i found
    rw [h] at found
    cases found
    rfl
  · rename_i none
    rw [h] at none
    cases none

theorem tokens_cons (h : takeName? (c :: t) = none) : tokens (c :: t) = .other c :: tokens t := by
  rw [tokens.eq_def]
  split
  · rename_i found
    rw [h] at found
    cases found
  · rfl

@[simp] theorem tokens_nil : tokens [] = [] := by
  rw [tokens.eq_def]
  rfl

theorem tokens_append_gap (gap : IsGap c) (t u : List Char) :
    tokens (t ++ c :: u) = tokens t ++ .other c :: tokens u := by
  fun_induction tokens t with
  | case1 t name rest found ih =>
    have longer : takeName? (t ++ c :: u) = some (name, rest ++ c :: u) := by
      rw [takeName?_append_gap gap, found, Option.map_some]
    rw [tokens_of_takeName? longer, ih, List.cons_append]
  | case2 =>
    rw [List.nil_append, List.nil_append, tokens_cons]
    exact takeName?_append_gap gap [] u
  | case3 d r none ih =>
    rw [List.cons_append, tokens_cons, ih, List.cons_append]
    rw [← List.cons_append, takeName?_append_gap gap, none, Option.map_none]

namespace Token

def name? : Token → Option String
  | name t => some (.ofList t)
  | other _ => none

def map (f : String → String) : Token → Token
  | name t => name (f (.ofList t)).toList
  | other c => other c

end Token

theorem names_eq (s : String) : names s = (tokens s.toList).filterMap Token.name? := rfl

theorem mapNames_eq (f : String → String) (s : String) :
    mapNames f s = .ofList (((tokens s.toList).map (Token.map f)).flatMap Token.text) := by
  rw [mapNames, List.flatMap_map]
  congr 2
  funext token
  cases token <;> rfl

theorem names_append_gap (gap : IsGap c) (t u : List Char) :
    names (.ofList (t ++ c :: u)) = names (.ofList t) ++ names (.ofList u) := by
  simp only [names_eq, String.toList_ofList, tokens_append_gap gap, List.filterMap_append]
  rfl

theorem names_cons_gap (gap : IsGap c) (t : List Char) : names (.ofList (c :: t)) = names (.ofList t) := by
  have cut := names_append_gap gap [] t
  rwa [List.nil_append, show names (.ofList []) = [] by simp [names_eq], List.nil_append] at cut

theorem names_gaps_append (gaps : ∀ d ∈ u, IsGap d) (t : List Char) : names (.ofList (u ++ t)) = names (.ofList t) := by
  induction u with
  | nil => rfl
  | cons d r ih =>
    obtain ⟨gap, gaps⟩ := List.forall_mem_cons.1 gaps
    rw [List.cons_append, names_cons_gap gap, ih gaps]

theorem names_append_gaps (gaps : ∀ d ∈ u, IsGap d) (t : List Char) : names (.ofList (t ++ u)) = names (.ofList t) := by
  cases u with
  | nil => rw [List.append_nil]
  | cons d r =>
    obtain ⟨gap, gaps⟩ := List.forall_mem_cons.1 gaps
    have none : names (.ofList r) = [] := by
      have := names_gaps_append gaps []
      rwa [List.append_nil, show names (.ofList []) = [] by simp [names_eq]] at this
    rw [names_append_gap gap, none, List.append_nil]

theorem names_trim {p : Char → Bool} (gaps : ∀ c, p c → IsGap c) (s : String) : names (Text.trim p s) = names s := by
  have back : s.toList.dropWhile p = Text.trimBoth p s.toList ++ (s.toList.dropWhile p).rtakeWhile p :=
    List.rdropWhile_append_rtakeWhile.symm
  have front : s.toList = s.toList.takeWhile p ++ s.toList.dropWhile p := (List.takeWhile_append_dropWhile).symm
  calc names (Text.trim p s)
    _ = names (.ofList (s.toList.dropWhile p)) := by
      rw [Text.trim, back, names_append_gaps]
      exact fun d hd => gaps d (List.mem_rtakeWhile_imp hd)
    _ = names (.ofList s.toList) := by
      conv_rhs => rw [front]
      exact (names_gaps_append (fun d hd => gaps d (List.mem_takeWhile_imp hd)) _).symm
    _ = names s := by rw [String.ofList_toList]

theorem toNat_of_isTail (h : isTail c) : 0x30 ≤ c.toNat ∧ c.toNat ≤ 0x7A := by
  delta isTail Char.isAlphanum Char.isAlpha Char.isUpper Char.isLower Char.isDigit at h
  simp only [Bool.or_eq_true, Bool.and_eq_true, decide_eq_true_eq, UInt32.le_iff_toNat_le, ge_iff_le, Char.toNat_val,
    Char.reduceToNat] at h
  obtain alphanumeric | rfl := h
  · omega
  · decide

theorem isGap_of_isBlank (h : Text.isBlank c) : IsGap c := by
  constructor
  · rw [← Bool.not_eq_true]
    intro tail
    have bounds := toNat_of_isTail tail
    simp only [Text.isBlank, Bool.or_eq_true, Bool.and_eq_true, decide_eq_true_eq, beq_iff_eq] at h
    omega
  · rintro rfl
    exact absurd h (by decide)

/-- Pieces that are kept apart: a name is followed by a gap or nothing, and nothing else starts like a name. -/
def Apart : List Token → Prop
  | [] => True
  | .name t :: r => IsWhole t ∧ (∀ d ∈ r.head?, ∃ c, d = .other c ∧ isTail c = false) ∧ Apart r
  | .other c :: r => c ≠ '\\' ∧ isHead c = false ∧ Apart r

theorem tokens_text (h : Apart ts) : tokens (ts.flatMap Token.text) = ts := by
  induction ts with
  | nil => exact tokens_nil
  | cons x r ih =>
    cases x with
    | name t =>
      obtain ⟨whole, stop, rest⟩ := h
      have read : takeName? (t ++ r.flatMap Token.text) = some (t, r.flatMap Token.text) := by
        cases r with
        | nil => rwa [List.flatMap_nil, List.append_nil]
        | cons y r =>
          obtain ⟨c, rfl, tail⟩ := stop y rfl
          have gap : IsGap c := ⟨tail, rest.1⟩
          change takeName? (t ++ c :: r.flatMap Token.text) = some (t, c :: r.flatMap Token.text)
          rw [takeName?_append_gap gap, show takeName? t = some (t, []) from whole]
          rfl
      rw [List.flatMap_cons, Token.text, tokens_of_takeName? read, ih rest]
    | other c =>
      obtain ⟨joint, head, rest⟩ := h
      have none : takeName? (c :: r.flatMap Token.text) = none := by rw [takeName?_cons joint, head]; rfl
      rw [List.flatMap_cons, Token.text, List.singleton_append, tokens_cons none, ih rest]

theorem takeTail_stop (t : List Char) :
    ∀ d r, (takeTail t).2 = d :: r → isTail d = false ∧ takeName? (d :: r) = none := by
  fun_induction takeTail t with
  | case1 => simp
  | case2 c r head name rest tail ih | case4 c r not tailed name rest tail ih =>
    rw [tail] at ih
    exact ih
  | case3 c r head =>
    rintro _ _ ⟨⟩
    exact ⟨by decide, by simp [takeName?, head]⟩
  | case5 c r lone tail =>
    rintro _ _ ⟨⟩
    refine ⟨by simpa using tail, ?_⟩
    by_cases back : c = '\\'
    · subst back
      cases r with
      | nil => decide
      | cons e r => exact (lone e r rfl rfl).elim
    · rw [takeName?_cons back, if_neg (fun head => tail (isTail_of_isHead head))]

theorem takeName?_stop {d : Char} {r : List Char} (h : takeName? t = some (u, d :: r)) :
    isTail d = false ∧ takeName? (d :: r) = none := by
  unfold takeName? at h
  split at h
  · cases h
  · rename_i c rest
    split at h
    · exact takeTail_stop rest d r (Prod.mk.inj (Option.some.inj h)).2
    · cases h
  · rename_i c rest _
    split at h
    · exact takeTail_stop rest d r (Prod.mk.inj (Option.some.inj h)).2
    · cases h

theorem apart_tokens (clean : .other '\\' ∉ tokens t) : Apart (tokens t) := by
  fun_induction tokens t with
  | case1 t name rest found ih =>
    rw [List.mem_cons, not_or] at clean
    refine ⟨isWhole_of_takeName? found, ?_, ih clean.2⟩
    cases rest with
    | nil => simp
    | cons d r =>
      obtain ⟨tail, none⟩ := takeName?_stop found
      rw [tokens_cons none]
      rintro _ ⟨⟩
      exact ⟨d, rfl, tail⟩
  | case2 => trivial
  | case3 c r none ih =>
    rw [List.mem_cons, not_or] at clean
    have joint : c ≠ '\\' := fun same => clean.1 (same ▸ rfl)
    refine ⟨joint, ?_, ih clean.2⟩
    rw [takeName?_cons joint] at none
    by_contra head
    simp [head] at none

theorem Apart.map (h : Apart ts) (whole : ∀ n ∈ ts.filterMap Token.name?, IsWhole (f n).toList) :
    Apart (ts.map (Token.map f)) := by
  induction ts with
  | nil => trivial
  | cons x r ih =>
    cases x with
    | name t =>
      obtain ⟨-, stop, rest⟩ := h
      refine ⟨whole _ (by simp [Token.name?]), ?_, ih rest fun n hn => whole n (by simp_all [Token.name?])⟩
      cases r with
      | nil => simp
      | cons y r =>
        obtain ⟨c, rfl, tail⟩ := stop y rfl
        rintro _ ⟨⟩
        exact ⟨c, rfl, tail⟩
    | other c =>
      obtain ⟨joint, head, rest⟩ := h
      exact ⟨joint, head, ih rest fun n hn => whole n (by simp_all [Token.name?])⟩

theorem tokens_mapNames (clean : .other '\\' ∉ tokens s.toList) (whole : ∀ n ∈ names s, IsWhole (f n).toList) :
    tokens (mapNames f s).toList = (tokens s.toList).map (Token.map f) := by
  rw [mapNames_eq, String.toList_ofList, tokens_text]
  exact (apart_tokens clean).map whole

theorem names_mapNames (clean : .other '\\' ∉ tokens s.toList) (whole : ∀ n ∈ names s, IsWhole (f n).toList) :
    names (mapNames f s) = (names s).map f := by
  rw [names_eq, tokens_mapNames clean whole, names_eq, List.filterMap_map, List.map_filterMap]
  congr 1
  funext x
  cases x <;> simp [Token.name?, Token.map]

theorem IsWhole.not_mem (h : IsWhole t) (gap : IsGap c) : c ∉ t := by
  obtain ⟨d, r, head, tail, written⟩ := h.exists_tail
  obtain ⟨first, segs, whole, within, all⟩ := takeTail_segments r
  rw [tail] at whole
  have rest : c ∉ d :: r := by
    have kept {t : List Char} (h : ∀ d ∈ t, isTail d) : c ∉ t := fun inside => by
      have := h c inside
      rw [gap.1] at this
      cases this
    rw [show r = first ++ segs.flatMap ('\\' :: ·) from whole, ← List.cons_append, List.mem_append, not_or]
    refine ⟨kept (List.forall_mem_cons.2 ⟨isTail_of_isHead head, within⟩), fun inside => ?_⟩
    obtain ⟨s, hs, inside⟩ := List.mem_flatMap.1 inside
    exact (List.mem_cons.1 inside).elim gap.2 (kept (all s hs).isTail)
  obtain rfl | rfl := written
  · exact rest
  · rw [List.mem_cons, not_or]
    exact ⟨gap.2, rest⟩

theorem mem_of_other_mem_tokens (h : .other c ∈ tokens t) : c ∈ t := by
  rw [← flatMap_text_tokens t]
  exact List.mem_flatMap.2 ⟨_, h, List.mem_singleton.2 rfl⟩

theorem mem_of_mem_mapNames (gap : IsGap c) (whole : ∀ n ∈ names s, IsWhole (f n).toList)
    (h : c ∈ (mapNames f s).toList) : c ∈ s.toList := by
  rw [mapNames_eq, String.toList_ofList, List.flatMap_map] at h
  obtain ⟨x, mem, inside⟩ := List.mem_flatMap.1 h
  cases x with
  | name t =>
    have named : .ofList t ∈ names s := List.mem_filterMap.2 ⟨_, mem, rfl⟩
    exact absurd inside ((whole _ named).not_mem gap)
  | other d =>
    obtain rfl := List.mem_singleton.1 inside
    exact mem_of_other_mem_tokens mem

theorem mapNames_append_gap (gap : IsGap c) (t u : List Char) :
    (mapNames f (.ofList (t ++ c :: u))).toList =
      (mapNames f (.ofList t)).toList ++ c :: (mapNames f (.ofList u)).toList := by
  simp [mapNames_eq, tokens_append_gap gap, Token.map, Token.text]

theorem mapNames_gaps_append (gaps : ∀ d ∈ u, IsGap d) (t : List Char) :
    (mapNames f (.ofList (u ++ t))).toList = u ++ (mapNames f (.ofList t)).toList := by
  induction u with
  | nil => rfl
  | cons d r ih =>
    obtain ⟨gap, gaps⟩ := List.forall_mem_cons.1 gaps
    have front := mapNames_append_gap (f := f) gap [] (r ++ t)
    rw [List.nil_append] at front
    rw [List.cons_append, front, ih gaps]
    simp [mapNames_eq]

theorem mapNames_intercalate (gap : IsGap c) (ss : List String) :
    mapNames f ((String.singleton c).intercalate ss) = (String.singleton c).intercalate (ss.map (mapNames f)) := by
  induction ss with
  | nil => simp [mapNames_eq]
  | cons s r ih =>
    cases r with
    | nil => simp
    | cons u r =>
      have pieces : (String.singleton c).intercalate (s :: u :: r) =
          .ofList (s.toList ++ c :: ((String.singleton c).intercalate (u :: r)).toList) := by
        simp [← String.toList_inj, String.intercalate_cons_cons]
      rw [pieces, ← String.toList_inj, mapNames_append_gap gap, String.ofList_toList, String.ofList_toList, ih]
      simp [String.intercalate_cons_cons]

theorem takeWhile_mapNames (gap : IsGap c) (whole : ∀ n ∈ names s, IsWhole (f n).toList) :
    (mapNames f s).toList.takeWhile (· ≠ c) = (mapNames f (.ofList (s.toList.takeWhile (· ≠ c)))).toList ∧
      (c ∈ (mapNames f s).toList ↔ c ∈ s.toList) := by
  by_cases inside : c ∈ s.toList
  · obtain ⟨t, u, cut, first⟩ := List.eq_append_cons_of_mem inside
    obtain rfl : s = .ofList (t ++ c :: u) := by rw [← cut, String.ofList_toList]
    have within : ∀ n ∈ names (.ofList t), IsWhole (f n).toList := by
      intro n hn
      apply whole n
      rw [names_append_gap gap]
      exact List.mem_append_left _ hn
    have before : c ∉ (mapNames f (.ofList t)).toList := by
      intro later
      have := mem_of_mem_mapNames gap within later
      rw [String.toList_ofList] at this
      exact first this
    rw [mapNames_append_gap gap, Text.takeWhile_ne_append before, String.toList_ofList, Text.takeWhile_ne_append first]
    exact ⟨rfl, by simp⟩
  · have outside : c ∉ (mapNames f s).toList := fun later => inside (mem_of_mem_mapNames gap whole later)
    rw [Text.takeWhile_ne outside, Text.takeWhile_ne inside, String.ofList_toList]
    exact ⟨rfl, iff_of_false outside inside⟩

end PhpScaffold.Name
