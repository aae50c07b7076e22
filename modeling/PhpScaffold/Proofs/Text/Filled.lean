import PhpScaffold.Text.Lines
import PhpScaffold.Proofs.Text.Plain

namespace PhpScaffold

namespace Text

def filled (ls : List String) : List String := ls.filter (!·.isEmpty)

def filledLines (s : String) : List String := filled ((cut '\n' s).map (trimEnd isBlank))

variable {s lead : String}

@[simp] theorem filled_nil : filled [] = [] := rfl

theorem filled_cons (l : String) (ls : List String) :
    filled (l :: ls) = if l = "" then filled ls else l :: filled ls := by
  simp [filled, List.filter_cons]

@[simp] theorem filled_append (ls ms : List String) : filled (ls ++ ms) = filled ls ++ filled ms :=
  List.filter_append ..

@[simp] theorem filled_reverse (ls : List String) : filled ls.reverse = (filled ls).reverse :=
  List.filter_reverse ..

theorem flatMap_filled_singleton (ls : List String) : ls.flatMap (fun l => filled [l]) = filled ls := by
  induction ls with
  | nil => rfl
  | cons l r ih => rw [List.flatMap_cons, ih, ← filled_append, List.singleton_append]

theorem filled_dropWhile (ls : List String) : filled (ls.dropWhile (·.isEmpty)) = filled ls := by
  induction ls with
  | nil => rfl
  | cons l r ih =>
    by_cases empty : l = ""
    · simpa [empty, filled_cons] using ih
    · simp [empty]

theorem cut_append_break (c : Char) (s t : String) : cut c (s ++ (.singleton c ++ t)) = cut c s ++ cut c t := by
  simp [cut, List.splitOn_append_cons_self]

@[simp] theorem filledLines_empty : filledLines "" = [] := by decide +kernel

theorem filledLines_append_break (s t : String) : filledLines (s ++ ("\n" ++ t)) = filledLines s ++ filledLines t := by
  have cuts := cut_append_break '\n' s t
  rw [show String.singleton '\n' = "\n" from rfl] at cuts
  rw [filledLines, cuts, List.map_append, filled_append, filledLines, filledLines]

@[simp] theorem filledLines_break (t : String) : filledLines ("\n" ++ t) = filledLines t := by
  simpa using filledLines_append_break "" t

@[simp] theorem filledLines_ended (s : String) : filledLines (s ++ "\n") = filledLines s := by
  simpa using filledLines_append_break s ""

theorem filledLines_join {α : Type} {f g : α → String} (ended : ∀ a, g a = f a ++ "\n") (as : List α) (t : String) :
    filledLines (String.join (as.map g) ++ t) = as.flatMap (fun a => filledLines (f a)) ++ filledLines t := by
  induction as with
  | nil => simp
  | cons a r ih =>
    rw [List.map_cons, String.join_cons, ended, String.append_assoc, String.append_assoc, filledLines_append_break, ih,
      List.flatMap_cons, List.append_assoc]

theorem filledLines_intercalate (ts : List String) : filledLines ("\n".intercalate ts) = ts.flatMap filledLines := by
  induction ts with
  | nil => simp
  | cons t r ih =>
    cases r with
    | nil => simp
    | cons u r =>
      rw [String.intercalate_cons_cons, String.append_assoc, filledLines_append_break, ih]
      rfl

theorem intercalate_cut (s : String) : "\n".intercalate (cut '\n' s) = s := intercalate_cut_singleton '\n' s

theorem filledLines_cut (s : String) : (cut '\n' s).flatMap filledLines = filledLines s := by
  rw [← filledLines_intercalate, intercalate_cut]

theorem filledLines_line (h : '\n' ∉ s.toList) : filledLines s = filled [trimEnd isBlank s] := by
  rw [filledLines, cut, List.splitOn_eq_singleton h, List.map_singleton, List.map_singleton, String.ofList_toList]

theorem dropEndWhile_append (p : Char → Bool) (t u : List Char) :
    dropEndWhile p (t ++ u) = if dropEndWhile p u = [] then dropEndWhile p t else t ++ dropEndWhile p u := by
  simp only [dropEndWhile, List.reverse_append, List.dropWhile_append, List.isEmpty_iff, List.reverse_eq_nil_iff]
  split <;> simp

theorem trimEnd_append (p : Char → Bool) (s t : String) :
    trimEnd p (s ++ t) = if trimEnd p t = "" then trimEnd p s else s ++ trimEnd p t := by
  simp only [trimEnd, String.toList_append, dropEndWhile_append, ← String.toList_eq_nil_iff, String.toList_ofList]
  split
  · rfl
  · rw [String.ofList_append, String.ofList_toList]

@[simp] theorem trimEnd_trimEnd (p : Char → Bool) (s : String) : trimEnd p (trimEnd p s) = trimEnd p s := by
  simp only [trimEnd, String.toList_ofList, dropEndWhile_eq, List.rdropWhile_idempotent]

theorem filledLines_shifted (blank : trimEnd isBlank lead = "") (within : '\n' ∉ lead.toList)
    (h : '\n' ∉ s.toList) : filledLines (lead ++ s) = (filledLines s).map (lead ++ ·) := by
  have joined : '\n' ∉ (lead ++ s).toList := by simp [within, h]
  rw [filledLines_line joined, filledLines_line h, trimEnd_append, blank]
  by_cases empty : trimEnd isBlank s = "" <;> simp [empty, filled_cons]

-- The block is cut into lines at every line break, which in a plain text are its line feeds.
theorem filledLines_block (blank : trimEnd isBlank lead = "") (within : '\n' ∉ lead.toList) (plain : IsPlain s)
    (kept : Bool) : filledLines (block lead true kept s) = (filledLines s).map (lead ++ ·) := by
  have shifted : ∀ l ∈ cut '\n' s, filledLines (lead ++ l) = (filledLines l).map (lead ++ ·) :=
    fun l hl => filledLines_shifted blank within (of_mem_cut hl).1
  have some : cut '\n' s ≠ [] := by simp [cut]
  rw [← filledLines_cut s]
  cases cuts : cut '\n' s with
  | nil => exact absurd cuts some
  | cons l ls =>
    rw [cuts] at shifted
    obtain ⟨first, rest⟩ := List.forall_mem_cons.1 shifted
    have later : ∀ m ∈ ls, filledLines (if m.isEmpty && !kept then m else lead ++ m) =
        (filledLines m).map (lead ++ ·) := by
      intro m hm
      split
      · simp_all
      · exact rest m hm
    rw [block, lines_append_feed plain, cuts]
    simp only [if_true, filledLines_intercalate, List.flatMap_cons, first, List.flatMap_map, List.map_append,
      List.map_flatMap, List.flatMap_congr later]

end Text

namespace Lint

open Text (IsPlain filled filledLines filled_append filled_cons isBlank trimEnd)

theorem unifyBreaks_eq {t : List Char} (h : '\r' ∉ t) : unifyBreaks t = t := by
  fun_induction unifyBreaks t <;> simp_all

theorem keep_empty (last : String) (rest : List String) :
    keep (last :: rest) "" = if last.isEmpty || opensBlock last then last :: rest else "" :: last :: rest := rfl

theorem keep_filled {line : String} (filled : line ≠ "") (kept : List String) :
    keep kept line = line :: if kept.head? = some "" ∧ closesBlock line then kept.tail else kept := by
  unfold keep
  rw [if_neg (by simpa using filled)]
  split
  · by_cases closes : closesBlock line <;> simp [closes]
  · rw [if_neg]
    rintro ⟨blank, -⟩
    cases kept with
    | nil => cases blank
    | cons k ks =>
      obtain rfl := Option.some.inj blank
      simp at *

theorem filled_keep (kept : List String) (line : String) : filled (keep kept line) = filled [line] ++ filled kept := by
  unfold keep
  split
  · have empty : line = "" := by simpa using ‹line.isEmpty›
    split
    · simp [empty]
    · split <;> simp [empty, filled_cons]
  · have some : line ≠ "" := by simpa using ‹¬line.isEmpty›
    split
    · split <;> simp [filled_cons, some]
    · simp [filled_cons, some]

theorem filled_foldl_keep (ls kept : List String) :
    filled (ls.foldl keep kept) = (filled ls).reverse ++ filled kept := by
  induction ls generalizing kept with
  | nil => rfl
  | cons l r ih =>
    have single : filled [l] = (filled [l]).reverse := by rw [← Text.filled_reverse, List.reverse_singleton]
    rw [List.foldl_cons, ih, filled_keep, single, ← List.append_assoc, ← List.reverse_append, ← filled_append,
      List.singleton_append]

theorem mem_keep {kept : List String} {line l : String} (h : l ∈ keep kept line) : l = "" ∨ l = line ∨ l ∈ kept := by
  unfold keep at h
  grind

theorem mem_foldl_keep {ls kept : List String} {l : String} (h : l ∈ ls.foldl keep kept) :
    l = "" ∨ l ∈ ls ∨ l ∈ kept := by
  induction ls generalizing kept with
  | nil => exact .inr (.inr h)
  | cons m r ih =>
    obtain empty | later | before := ih h
    · exact .inl empty
    · exact .inr (.inl (List.mem_cons_of_mem m later))
    · obtain empty | rfl | earlier := mem_keep before
      · exact .inl empty
      · exact .inr (.inl List.mem_cons_self)
      · exact .inr (.inr earlier)

theorem filled_lines (s : String) : filled (lines s) = filledLines (.ofList (unifyBreaks s.toList)) := by
  rw [lines, Text.filled_reverse, Text.filled_dropWhile, filled_foldl_keep]
  simp [filledLines]

theorem exists_of_mem_lines {s l : String} (h : l ∈ lines s) :
    l = "" ∨ ∃ m ∈ Text.cut '\n' (.ofList (unifyBreaks s.toList)), l = trimEnd isBlank m := by
  rw [lines, List.mem_reverse] at h
  obtain empty | trimmed | none := mem_foldl_keep ((List.dropWhile_suffix _).subset h)
  · exact .inl empty
  · obtain ⟨m, hm, rfl⟩ := List.mem_map.1 trimmed
    exact .inr ⟨m, hm, rfl⟩
  · cases none

theorem trimEnd_of_mem_lines {s l : String} (h : l ∈ lines s) : trimEnd isBlank l = l := by
  obtain rfl | ⟨m, -, rfl⟩ := exists_of_mem_lines h
  · rfl
  · exact Text.trimEnd_trimEnd isBlank m

theorem of_mem_lines {s l : String} {c : Char} (h : l ∈ lines s) (hc : c ∈ l.toList) :
    c ≠ '\n' ∧ c ∈ unifyBreaks s.toList := by
  obtain rfl | ⟨m, hm, rfl⟩ := exists_of_mem_lines h
  · cases hc
  · rw [trimEnd, String.toList_ofList] at hc
    obtain ⟨apart, part⟩ := Text.of_mem_cut hm
    have inside := Text.dropEndWhile_subset _ _ hc
    exact ⟨fun feed => apart (feed ▸ inside), by simpa using part inside⟩

theorem filledLines_of_mem_lines {s l : String} (h : l ∈ lines s) : filledLines l = filled [l] := by
  rw [Text.filledLines_line fun inside => (of_mem_lines h inside).1 rfl, trimEnd_of_mem_lines h]

theorem filledLines_lint (s : String) : filledLines (lint s) = filledLines (.ofList (unifyBreaks s.toList)) := by
  rw [lint, Text.filledLines_ended, Text.filledLines_intercalate,
    List.flatMap_congr fun l hl => filledLines_of_mem_lines hl, Text.flatMap_filled_singleton, filled_lines]

theorem filledLines_lint_of_isPlain {s : String} (h : IsPlain s) : filledLines (lint s) = filledLines s := by
  have clear : '\r' ∉ s.toList := fun inside => absurd (h _ inside (by decide)) (by decide)
  rw [filledLines_lint, unifyBreaks_eq clear, String.ofList_toList]

end Lint

end PhpScaffold
