import PhpScaffold.Proofs.Text.Word

namespace PhpScaffold.Text

def ink (s : String) : Nat := s.toList.countP (!isBlank ·)

variable {s t : String} {ts : List String}

theorem ink_eq_of_words (h : words s.toList = words t.toList) : ink s = ink t := by
  rw [ink, ink, List.countP_eq_length_filter, List.countP_eq_length_filter, ← flatten_words, h, flatten_words]

@[simp] theorem ink_empty : ink "" = 0 := rfl

@[simp] theorem ink_append (s t : String) : ink (s ++ t) = ink s + ink t := by
  rw [ink, String.toList_append, List.countP_append]
  rfl

theorem ink_le_join (h : t ∈ ts) : ink t ≤ ink (String.join ts) := by
  obtain ⟨before, after, rfl⟩ := List.append_of_mem h
  simp only [String.join_append, String.join_cons, ink_append]
  omega

theorem ink_join_map {f : String → String} (same : ∀ t, ink (f t) = ink t) (ts : List String) :
    ink (String.join (ts.map f)) = ink (String.join ts) := by
  induction ts with
  | nil => rfl
  | cons t r ih => simp only [List.map_cons, String.join_cons, ink_append, same, ih]

theorem ink_join_le_intercalate (between : String) (ts : List String) :
    ink (String.join ts) ≤ ink (between.intercalate ts) := by
  induction ts with
  | nil => exact Nat.le_refl _
  | cons t r ih =>
    cases r with
    | nil => simp
    | cons u r =>
      rw [String.intercalate_cons_cons, String.join_cons]
      simp only [ink_append]
      omega

theorem ink_le_intercalate (between : String) (h : t ∈ ts) : ink t ≤ ink (between.intercalate ts) :=
  (ink_le_join h).trans (ink_join_le_intercalate between ts)

theorem ink_indent (s : String) : ink (indent s) = ink s := ink_eq_of_words (words_indent s)

theorem ink_block (s : String) : ink (block Print.unit true false s) = ink s := ink_eq_of_words (words_block s)

theorem ink_replace (s : String) : ink (replace '\n' ' ' s) = ink s := ink_eq_of_words (words_replace s)

end PhpScaffold.Text
