import PhpScaffold.Proofs.Text.Filled

namespace PhpScaffold

namespace Text

def feeds (p : Char → Bool) : List Char → List Char
  | [] => []
  | '\r' :: '\n' :: r => '\n' :: feeds p r
  | c :: r => (if p c then '\n' else c) :: feeds p r

variable {p : Char → Bool} {c : Char}

theorem feeds_cons {r : List Char} (h : ∀ r', c = '\r' → r ≠ '\n' :: r') :
    feeds p (c :: r) = (if p c then '\n' else c) :: feeds p r := by
  rw [feeds]
  exact h

theorem feeds_append_cons (feed : c ≠ '\n') (single : c ≠ '\r') (within : p c = false) (s t : List Char) :
    feeds p (s ++ c :: t) = feeds p s ++ c :: feeds p t := by
  fun_induction feeds p s with
  | case1 =>
    rw [List.nil_append, feeds_cons fun _ carriage => absurd carriage single, within]
    rfl
  | case2 r ih =>
    rw [List.cons_append, List.cons_append, feeds, ih]
    rfl
  | case3 d r other ih =>
    have apart : ∀ r', d = '\r' → r ++ c :: t ≠ '\n' :: r' := by
      intro r' carriage next
      cases r with
      | nil => exact feed (List.cons.inj next).1
      | cons e r => exact other r carriage (by rw [(List.cons.inj next).1])
    rw [List.cons_append, feeds_cons apart, ih]
    rfl

theorem feeds_of_oneLine (only : ∀ c, p c → isLineBreak c) {t : List Char} (h : Decimal.OneLine t) : feeds p t = t := by
  induction t with
  | nil => rfl
  | cons c r ih =>
    obtain ⟨within, rest⟩ := Decimal.oneLine_cons.1 h
    have stays : ¬p c := fun meant => by simp [only c meant] at within
    rw [feeds_cons, if_neg stays, ih rest]
    rintro r' rfl
    exact absurd within (by decide)

theorem feeds_append_of_oneLine (only : ∀ c, p c → isLineBreak c) {t : List Char} (h : Decimal.OneLine t)
    (s : List Char) : feeds p (s ++ t) = feeds p s ++ t := by
  cases t with
  | nil => simp
  | cons c r =>
    obtain ⟨within, rest⟩ := Decimal.oneLine_cons.1 h
    have stays : p c = false := by
      by_contra meant
      simp [only c (by simpa using meant)] at within
    rw [feeds_append_cons _ _ stays, feeds_of_oneLine only rest]
    · rintro rfl
      exact absurd within (by decide)
    · rintro rfl
      exact absurd within (by decide)

theorem exists_feeds_append_feed_cons (p : Char → Bool) (t s : List Char) :
    ∃ u, feeds p (t ++ '\n' :: s) = u ++ '\n' :: feeds p s := by
  fun_induction feeds p t with
  | case1 => exact ⟨[], by rw [List.nil_append, List.nil_append, feeds_cons (by rintro _ ⟨⟩), ite_self]⟩
  | case2 r ih =>
    obtain ⟨u, fed⟩ := ih
    exact ⟨'\n' :: u, by rw [List.cons_append, List.cons_append, feeds, fed]; rfl⟩
  | case3 c r other ih =>
    obtain ⟨u, fed⟩ := ih
    by_cases carriage : c = '\r' ∧ r = []
    · obtain ⟨rfl, rfl⟩ := carriage
      exact ⟨[], by simp [feeds]⟩
    · refine ⟨(if p c then '\n' else c) :: u, ?_⟩
      rw [List.cons_append, feeds_cons, fed]
      · rfl
      · intro r' single next
        cases r with
        | nil => exact carriage ⟨single, rfl⟩
        | cons e r => exact other r single (by rw [(List.cons.inj next).1])

theorem exists_feeds_append_feed (p : Char → Bool) (t : List Char) : ∃ u, feeds p (t ++ ['\n']) = u ++ ['\n'] :=
  exists_feeds_append_feed_cons p t []

theorem feeds_oneLine_append (only : ∀ c, p c → isLineBreak c) {t : List Char} (h : Decimal.OneLine t) (s : List Char) :
    feeds p (t ++ '\n' :: s) = t ++ '\n' :: feeds p s := by
  induction t with
  | nil => rw [List.nil_append, List.nil_append, feeds_cons (by rintro _ ⟨⟩), ite_self]
  | cons c r ih =>
    obtain ⟨within, rest⟩ := Decimal.oneLine_cons.1 h
    have stays : ¬p c := fun meant => by simp [only c meant] at within
    rw [List.cons_append, feeds_cons, if_neg stays, ih rest, List.cons_append]
    rintro _ rfl
    exact absurd within (by decide)

theorem eq_feed_of_mem_feeds {t : List Char} (hc : c ∈ feeds p t) (ends : p c) : c = '\n' := by
  fun_induction feeds p t with
  | case1 => cases hc
  | case2 r ih => exact (List.mem_cons.1 hc).elim id ih
  | case3 d r other ih =>
    obtain here | later := List.mem_cons.1 hc
    · split at here
      · exact here
      · exact absurd (here ▸ ends) ‹_›
    · exact ih later

theorem isPlain_feeds (t : List Char) : IsPlain (.ofList (feeds isLineBreak t)) := by
  intro c hc ends
  rw [String.toList_ofList] at hc
  exact eq_feed_of_mem_feeds hc ends

theorem splitLines_feeds (t : List Char) : splitLines (feeds isLineBreak t) = splitLines t := by
  fun_induction splitLines t with
  | case1 => rfl
  | case2 r ih => rw [feeds, splitLines_break (by decide) (by decide), ih]
  | case3 c r other ends ih => rw [feeds_cons other, if_pos ends, splitLines_break (by decide) (by decide), ih]
  | case4 c r other within none ih =>
    rw [feeds_cons other, if_neg within, splitLines, if_neg within, ih, none]
    exact fun r' carriage => absurd (carriage ▸ within) (by decide)
  | case5 c r other within l ls some ih =>
    rw [feeds_cons other, if_neg within, splitLines, if_neg within, ih, some]
    exact fun r' carriage => absurd (carriage ▸ within) (by decide)

theorem lines_of_feeds {s : String} {u : List Char} (h : feeds isLineBreak (s.toList ++ ['\n']) = u ++ ['\n']) :
    lines (s ++ "\n") = cut '\n' (.ofList u) := by
  have plain := isPlain_feeds (s.toList ++ ['\n'])
  rw [h] at plain
  have front : IsPlain (.ofList u) := plain.of_subset (by simp)
  have same : splitLines (u ++ ['\n']) = splitLines (s ++ "\n").toList := by
    rw [← h, splitLines_feeds, String.toList_append]
    rfl
  rw [← lines_append_feed front, lines, lines, ← same]
  simp

end Text

theorem Lint.unifyBreaks_eq_feeds (t : List Char) : unifyBreaks t = Text.feeds (· = '\r') t := by
  fun_induction unifyBreaks t with
  | case1 => rfl
  | case2 r ih => rw [ih, Text.feeds]
  | case3 r other ih =>
    rw [ih, Text.feeds_cons fun r' _ => other r']
    rfl
  | case4 c r other single ih =>
    rw [ih, Text.feeds_cons fun r' carriage => absurd carriage single, if_neg (by simpa using single)]

end PhpScaffold
