import PhpScaffold.Proofs.Print.Passage

namespace PhpScaffold

namespace Text

def words (t : List Char) : List (List Char) := (t.splitOnP isBlank).filter (· ≠ [])

variable {c : Char} {s t u w : List Char}

theorem flatten_words (t : List Char) : (words t).flatten = t.filter (!isBlank ·) := by
  rw [words, List.flatten_filter_ne_nil]
  induction t with
  | nil => rfl
  | cons c r ih =>
    rw [List.splitOnP_cons_eq_if_modifyHead]
    obtain ⟨first, rest, pieces⟩ := List.exists_cons_of_ne_nil (List.splitOnP_ne_nil isBlank r)
    rw [pieces] at ih
    split
    · rename_i blank
      rw [List.filter_cons_of_neg (by simp [blank]), ← ih, pieces, List.flatten_cons, List.nil_append]
    · rename_i within
      rw [List.filter_cons_of_pos (by simpa using within), ← ih, pieces]
      rfl

theorem of_mem_words (h : w ∈ words t) : w ≠ [] ∧ ∀ c ∈ w, isBlank c = false := by
  refine ⟨of_decide_eq_true (List.mem_filter.1 h).2, fun c hc => ?_⟩
  have kept : c ∈ t.filter (!isBlank ·) := flatten_words t ▸ List.mem_flatten.2 ⟨w, h, hc⟩
  simpa using (List.mem_filter.1 kept).2

@[simp] theorem words_nil : words [] = [] := rfl

theorem words_append_blank (blank : isBlank c) (s t : List Char) : words (s ++ c :: t) = words s ++ words t := by
  rw [words, List.splitOnP_append_cons s t blank, List.filter_append, words, words]

theorem words_blank_cons (blank : isBlank c) (t : List Char) : words (c :: t) = words t :=
  words_append_blank blank [] t

theorem words_blanks_append (blank : ∀ c ∈ s, isBlank c) (t : List Char) : words (s ++ t) = words t := by
  induction s with
  | nil => rfl
  | cons c r ih =>
    obtain ⟨first, rest⟩ := List.forall_mem_cons.1 blank
    rw [List.cons_append, words_blank_cons first, ih rest]

theorem words_append_blanks (t : List Char) (blank : ∀ c ∈ s, isBlank c) : words (t ++ s) = words t := by
  cases s with
  | nil => rw [List.append_nil]
  | cons c r =>
    obtain ⟨first, rest⟩ := List.forall_mem_cons.1 blank
    have none : words r = [] := by simpa using words_blanks_append rest []
    rw [words_append_blank first, none, List.append_nil]

theorem words_of_filled (filled : w ≠ []) (within : ∀ c ∈ w, isBlank c = false) : words w = [w] := by
  rw [words, List.splitOnP_eq_singleton fun c hc => by simp [within c hc]]
  simp [filled]

theorem words_filled_append (filled : w ≠ []) (within : ∀ c ∈ w, isBlank c = false) (stop : ∀ c ∈ t.head?, isBlank c) :
    words (w ++ t) = w :: words t := by
  cases t with
  | nil => rw [List.append_nil, words_of_filled filled within, words_nil]
  | cons c r =>
    have blank := stop c rfl
    rw [words_append_blank blank, words_of_filled filled within, words_blank_cons blank, List.singleton_append]

theorem blank_head?_dropWhile (t : List Char) : ∀ c ∈ (t.dropWhile (!isBlank ·)).head?, isBlank c := by
  intro c hc
  have stopped := List.head?_dropWhile_not (!isBlank ·) t
  rw [hc] at stopped
  simpa using stopped

theorem exists_of_words_cons {ws : List (List Char)} (h : words t = w :: ws) :
    ∃ u r, t = u ++ w ++ r ∧ (∀ c ∈ u, isBlank c) ∧ (∀ c ∈ r.head?, isBlank c) ∧ words r = ws := by
  let rest := t.dropWhile isBlank
  let first := rest.takeWhile (!isBlank ·)
  have front : ∀ c ∈ t.takeWhile isBlank, isBlank c := fun c hc => List.mem_takeWhile_imp hc
  have whole : t = t.takeWhile isBlank ++ first ++ rest.dropWhile (!isBlank ·) := by
    rw [List.append_assoc, List.takeWhile_append_dropWhile, List.takeWhile_append_dropWhile]
  have within : ∀ c ∈ first, isBlank c = false := fun c hc => by simpa using List.mem_takeWhile_imp hc
  have stop : ∀ c ∈ (rest.dropWhile (!isBlank ·)).head?, isBlank c := blank_head?_dropWhile rest
  have filled : first ≠ [] := by
    intro empty
    have none : rest = [] := by
      by_contra some
      obtain ⟨c, r, cons⟩ := List.exists_cons_of_ne_nil some
      have kept := List.head?_dropWhile_not isBlank t
      rw [show t.dropWhile isBlank = c :: r from cons] at kept
      have starts : first = c :: r.takeWhile (!isBlank ·) := by
        rw [show first = (c :: r).takeWhile (!isBlank ·) from congrArg _ cons]
        exact List.takeWhile_cons_of_pos (by simpa using kept)
      rw [starts] at empty
      cases empty
    rw [whole, empty, none, List.append_nil, List.dropWhile_nil, List.append_nil] at h
    have blank := words_blanks_append front []
    rw [List.append_nil] at blank
    rw [blank] at h
    cases h
  rw [whole, List.append_assoc, words_blanks_append front, words_filled_append filled within stop] at h
  obtain ⟨rfl, rfl⟩ := List.cons.inj h
  exact ⟨_, _, whole, front, stop, rfl⟩

/-- Between two words a text can be cut, so that its second part starts with the second of them. -/
theorem exists_of_words_append {ws vs : List (List Char)} (h : words t = ws ++ w :: vs) :
    ∃ a r, t = a ++ (w ++ r) ∧ words a = ws ∧ words r = vs ∧ (∀ c ∈ a.getLast?, isBlank c) ∧
      ∀ c ∈ r.head?, isBlank c := by
  induction ws generalizing t with
  | nil =>
    obtain ⟨u, r, whole, blank, stop, rest⟩ := exists_of_words_cons h
    refine ⟨u, r, by rw [whole, List.append_assoc], ?_, rest, fun c hc => blank c (List.mem_of_getLast? hc), stop⟩
    simpa using words_blanks_append blank []
  | cons v ws ih =>
    obtain ⟨u, r, whole, blank, stop, rest⟩ := exists_of_words_cons h
    obtain ⟨a, r', cut, before, behind, ended, further⟩ := ih rest
    have word : v ∈ words t := by simp [h]
    obtain ⟨filled, within⟩ := of_mem_words word
    obtain ⟨some, other⟩ := of_mem_words (show w ∈ words t by simp [h])
    have opened : ∀ c ∈ a.head?, isBlank c := by
      cases a with
      | nil => simp
      | cons c a =>
        rw [cut] at stop
        exact stop
    have apart : a ≠ [] := by
      rintro rfl
      obtain ⟨c, w', rfl⟩ := List.exists_cons_of_ne_nil some
      have blank := stop c (by simp [cut])
      rw [other c List.mem_cons_self] at blank
      cases blank
    refine ⟨u ++ v ++ a, r', by rw [whole, cut]; simp only [List.append_assoc], ?_, behind, ?_, further⟩
    · rw [List.append_assoc, words_blanks_append blank, words_filled_append filled within opened, before]
    · rwa [List.getLast?_append_of_ne_nil _ apart]

theorem infix_of_mem_words (h : w ∈ words t) : w <:+: t := by
  obtain ⟨ws, vs, parts⟩ := List.append_of_mem h
  obtain ⟨a, r, whole, -⟩ := exists_of_words_append parts
  exact ⟨a, r, by rw [whole, List.append_assoc]⟩

theorem exists_mem_words_append {x : List Char} (filled : x ≠ []) (within : ∀ c ∈ x, isBlank c = false)
    (t : List Char) : ∃ w ∈ words (x ++ t), x <:+: w := by
  have letters : ∀ c ∈ x ++ t.takeWhile (!isBlank ·), isBlank c = false :=
    List.forall_mem_append.2 ⟨within, fun c hc => by simpa using List.mem_takeWhile_imp hc⟩
  refine ⟨x ++ t.takeWhile (!isBlank ·), ?_, (List.prefix_append _ _).isInfix⟩
  rw [← List.takeWhile_append_dropWhile (p := (!isBlank ·)) (l := t), ← List.append_assoc, words_filled_append
    (by simp [filled]) (by simpa using letters) (by simpa using blank_head?_dropWhile t)]
  simp

theorem exists_mem_words_cons (h : w ∈ words t) (c : Char) : ∃ v ∈ words (c :: t), w <:+: v := by
  by_cases blank : isBlank c
  · exact ⟨w, by rwa [words_blank_cons blank], List.infix_rfl⟩
  · have letter : ∀ d ∈ [c], isBlank d = false := by simpa using blank
    cases parts : words t with
    | nil => simp [parts] at h
    | cons v vs =>
      obtain ⟨u, r, whole, front, stop, rest⟩ := exists_of_words_cons parts
      obtain ⟨some, within⟩ := of_mem_words (show v ∈ words t by simp [parts])
      rw [parts] at h
      cases u with
      | nil =>
        rw [List.nil_append] at whole
        have joined : words (c :: t) = (c :: v) :: vs := by
          rw [whole, ← List.cons_append, words_filled_append (by simp) (List.forall_mem_cons.2
            ⟨by simpa using blank, within⟩) stop, rest]
        obtain rfl | later := List.mem_cons.1 h
        · exact ⟨c :: w, by simp [joined], (List.suffix_cons c w).isInfix⟩
        · exact ⟨w, by simp [joined, later], List.infix_rfl⟩
      | cons d u =>
        have apart : words ([c] ++ t) = [c] :: words t := words_filled_append (by simp) letter <| by
          rw [whole]
          simpa using front d List.mem_cons_self
        refine ⟨w, ?_, List.infix_rfl⟩
        rw [List.singleton_append] at apart
        rw [apart, parts]
        exact List.mem_cons_of_mem _ h

theorem exists_mem_words_infix {x : List Char} (filled : x ≠ []) (within : ∀ c ∈ x, isBlank c = false) :
    (∃ w ∈ words t, x <:+: w) ↔ x <:+: t := by
  constructor
  · rintro ⟨w, hw, inside⟩
    exact inside.trans (infix_of_mem_words hw)
  · rintro ⟨a, b, rfl⟩
    rw [List.append_assoc]
    induction a with
    | nil => exact exists_mem_words_append filled within b
    | cons c a ih =>
      obtain ⟨w, hw, inside⟩ := ih
      obtain ⟨v, hv, further⟩ := exists_mem_words_cons hw c
      exact ⟨v, hv, inside.trans further⟩

theorem isBlank_of_isLineBreak (h : isLineBreak c) : isBlank c := by
  simp only [isLineBreak, isBlank, Bool.or_eq_true, Bool.and_eq_true, decide_eq_true_eq, beq_iff_eq] at *
  omega

theorem words_map {f : Char → Char} (blank : ∀ c, isBlank c → isBlank (f c)) (other : ∀ c, isBlank c = false → f c = c)
    (t : List Char) : words (t.map f) = words t := by
  -- the induction keeps the letters of the word that is being read
  suffices reading : ∀ w, words (w ++ t.map f) = words (w ++ t) from reading []
  induction t with
  | nil => simp
  | cons c r ih =>
    intro w
    by_cases ends : isBlank c
    · rw [List.map_cons, words_append_blank (blank c ends), words_append_blank ends]
      exact congrArg _ (ih [])
    · rw [List.map_cons, other c (by simpa using ends), List.append_cons, ih, ← List.append_cons]

theorem words_replace (s : String) : words (replace '\n' ' ' s).toList = words s.toList := by
  rw [replace, String.toList_map]
  refine words_map (fun c blank => ?_) (fun c within => ?_) s.toList
  · split
    · decide
    · exact blank
  · rw [if_neg]
    rintro rfl
    exact absurd within (by decide)

theorem words_feeds {p : Char → Bool} (only : ∀ c, p c → isLineBreak c) (t : List Char) :
    words (feeds p t) = words t := by
  suffices reading : ∀ w, words (w ++ feeds p t) = words (w ++ t) from reading []
  fun_induction feeds p t with
  | case1 => simp
  | case2 r ih =>
    intro w
    have single : words ('\n' :: r) = words r := words_blank_cons (by decide) r
    rw [words_append_blank (by decide), words_append_blank (by decide), single]
    exact congrArg _ (ih [])
  | case3 c r other ih =>
    intro w
    by_cases ends : p c
    · have blank := isBlank_of_isLineBreak (only c ends)
      rw [if_pos ends, words_append_blank (by decide), words_append_blank blank]
      exact congrArg _ (ih [])
    · rw [if_neg ends, List.append_cons, ih, ← List.append_cons]

theorem words_intercalate (c : Char) (blank : isBlank c) (ls : List String) :
    words ((String.singleton c).intercalate ls).toList = ls.flatMap (words ·.toList) := by
  induction ls with
  | nil => rfl
  | cons l r ih =>
    cases r with
    | nil => simp
    | cons m r =>
      have joined : ((String.singleton c).intercalate (l :: m :: r)).toList =
          l.toList ++ c :: ((String.singleton c).intercalate (m :: r)).toList := by
        simp [String.intercalate_cons_cons]
      rw [joined, words_append_blank blank, ih]
      rfl

theorem words_cut (s : String) : (cut '\n' s).flatMap (words ·.toList) = words s.toList := by
  rw [← words_intercalate '\n' (by decide), intercalate_cut_singleton]

theorem words_trimEnd (s : String) : words (trimEnd isBlank s).toList = words s.toList := by
  rw [trimEnd, String.toList_ofList, dropEndWhile_eq]
  have whole : s.toList = s.toList.rdropWhile isBlank ++ s.toList.rtakeWhile isBlank := by
    simp [List.rdropWhile, List.rtakeWhile, ← List.reverse_append]
  conv_rhs => rw [whole]
  exact (words_append_blanks _ fun c hc => List.mem_rtakeWhile_imp hc).symm

theorem words_unit_append (l : String) : words (Print.unit ++ l).toList = words l.toList := by
  rw [String.toList_append]
  exact words_blanks_append (by decide) _

theorem words_indentLine (l : String) : words (Print.indentLine l).toList = words l.toList := by
  unfold Print.indentLine
  split
  · rename_i blank
    have none := words_blanks_append (List.all_eq_true.1 blank) []
    rw [List.append_nil] at none
    exact none.symm
  · exact words_unit_append l

theorem words_indent (s : String) : words (indent s).toList = words s.toList := by
  have lines : indent s = (String.singleton '\n').intercalate ((cut '\n' s).map Print.indentLine) := rfl
  rw [lines, words_intercalate '\n' (by decide), List.flatMap_map,
    List.flatMap_congr fun l _ => words_indentLine l, words_cut]

theorem words_shiftLine (l : String) : words (Print.shiftLine l).toList = words l.toList := by
  unfold Print.shiftLine
  split
  · rfl
  · exact words_unit_append l

theorem flatMap_words_shiftLines (ls : List String) :
    (Print.shiftLines ls).flatMap (words ·.toList) = ls.flatMap (words ·.toList) := by
  cases ls with
  | nil => decide
  | cons l r =>
    rw [Print.shiftLines, List.flatMap_cons, List.flatMap_cons, words_unit_append, List.flatMap_map,
      List.flatMap_congr fun l _ => words_shiftLine l]

theorem words_block (s : String) : words (block Print.unit true false s).toList = words s.toList := by
  obtain ⟨u, fed⟩ := exists_feeds_append_feed isLineBreak s.toList
  have ended : words u = words (feeds isLineBreak (s.toList ++ ['\n'])) := by
    rw [fed]
    exact (words_append_blanks u (by decide)).symm
  have lines := words_intercalate '\n' (by decide) (Print.shiftLines (Text.lines (s ++ "\n")))
  rw [Print.block_eq]
  refine lines.trans ?_
  rw [flatMap_words_shiftLines, lines_of_feeds fed, words_cut, String.toList_ofList, ended,
    words_feeds (fun _ => id), words_append_blanks _ (by decide)]

end Text

namespace Lint

open Text (words isBlank trimEnd filled)

theorem flatMap_words_filled (ls : List String) :
    (filled ls).flatMap (words ·.toList) = ls.flatMap (words ·.toList) := by
  induction ls with
  | nil => rfl
  | cons l r ih =>
    rw [Text.filled_cons, List.flatMap_cons, ← ih]
    split
    · simp [*]
    · rw [List.flatMap_cons]

theorem words_lint (s : String) : words (lint s).toList = words s.toList := by
  have carriage (c : Char) (h : decide (c = '\r') = true) : Text.isLineBreak c := by
    obtain rfl := of_decide_eq_true h
    decide
  have ended : words (lint s).toList = (lines s).flatMap (words ·.toList) := by
    rw [lint, String.toList_append, Text.words_append_blanks _ (by decide)]
    exact Text.words_intercalate '\n' (by decide) (lines s)
  rw [ended, ← flatMap_words_filled, filled_lines, Text.filledLines, flatMap_words_filled, List.flatMap_map,
    List.flatMap_congr fun l _ => Text.words_trimEnd l, Text.words_cut, String.toList_ofList, unifyBreaks_eq_feeds,
    Text.words_feeds carriage]

end Lint

end PhpScaffold
