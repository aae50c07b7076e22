import PhpScaffold.Proofs.Text.Feed
import Mathlib.Data.List.Chain

namespace PhpScaffold

namespace Text

variable {p : Char → Bool} {s : String}

theorem dropEndWhile_of_suffix {t u : List Char} (h : dropEndWhile p t = t) (part : u <:+ t) : dropEndWhile p u = u := by
  rw [dropEndWhile_eq, List.rdropWhile_eq_self_iff] at h ⊢
  intro some
  rw [part.getLast some]
  exact h _

theorem trim_eq_trimStart (h : trimEnd p s = s) : trim p s = trimStart p s := by
  rw [trimEnd, ← String.toList_inj, String.toList_ofList] at h
  rw [trim, trimBoth, dropEndWhile_of_suffix h (List.dropWhile_suffix p), trimStart]

theorem trimEnd_eq_empty : trimEnd isBlank s = "" ↔ allBlank s := by
  rw [trimEnd, ← String.toList_inj, String.toList_ofList, dropEndWhile_eq, String.toList_empty,
    List.rdropWhile_eq_nil_iff, allBlank, List.all_eq_true]

theorem allBlank_iff (h : trimEnd isBlank s = s) : allBlank s ↔ s = "" := by
  rw [← trimEnd_eq_empty, h]

def solid (s : String) : List String := (cut '\n' s).filter (!allBlank ·)

theorem map_solid (s : String) : (solid s).map (trimEnd isBlank) = filledLines s := by
  have same (l : String) : allBlank l = (trimEnd isBlank l).isEmpty := by
    rw [Bool.eq_iff_iff, String.isEmpty_iff, trimEnd_eq_empty]
  simp only [filledLines, filled, solid, List.filter_map, Function.comp_def, same]

def rows (s : String) : List String := (cut '\n' s).dropLast

theorem cut_ended (s : String) : cut '\n' (s ++ "\n") = cut '\n' s ++ [""] :=
  cut_append_break '\n' s ""

theorem rows_ended (s : String) : rows (s ++ "\n") = cut '\n' s := by
  rw [rows, cut_ended, List.dropLast_concat]

end Text

namespace Lint

open Text (cut isBlank trimEnd trim allBlank solid rows)

structure Follows (a b : String) : Prop where
  single : ¬(allBlank a ∧ allBlank b)
  opened : a.toList.getLast? = some '\x7b' → ¬allBlank b
  closed : trim isBlank b = "\x7d" → ¬allBlank a

structure Tidy (s : String) : Prop where
  ended : ∃ t, s = t ++ "\n" ∧ t.toList.getLast? ≠ some '\n'
  feeds : '\r' ∉ s.toList
  trimmed : ∀ l ∈ rows s, trimEnd isBlank l = l
  follows : (rows s).IsChain Follows
  last : s ≠ "\n" → ∀ l ∈ (rows s).getLast?, ¬allBlank l

def Parted (a b : String) : Prop := (b = "" → a ≠ "" ∧ ¬opensBlock a) ∧ (a = "" → ¬closesBlock b)

variable {s a b : String} {ls kept : List String}

theorem follows_iff_parted (ha : trimEnd isBlank a = a) (hb : trimEnd isBlank b = b) : Follows a b ↔ Parted a b := by
  have opens : a.toList.getLast? = some '\x7b' ↔ opensBlock a := by simp [opensBlock]
  have closes : trim isBlank b = "\x7d" ↔ closesBlock b := by simp [Text.trim_eq_trimStart hb, closesBlock]
  constructor
  · rintro ⟨single, opened, closed⟩
    rw [Text.allBlank_iff ha, Text.allBlank_iff hb] at single
    rw [Text.allBlank_iff hb, opens] at opened
    rw [Text.allBlank_iff ha, closes] at closed
    exact ⟨fun blank => ⟨fun first => single ⟨first, blank⟩, fun opening => opened opening blank⟩,
      fun blank closing => closed closing blank⟩
  · rintro ⟨blank, closed⟩
    constructor
    · rw [Text.allBlank_iff ha, Text.allBlank_iff hb]
      exact fun ⟨first, second⟩ => (blank second).1 first
    · rw [Text.allBlank_iff hb, opens]
      exact fun opening second => (blank second).2 opening
    · rw [Text.allBlank_iff ha, closes]
      exact fun closing first => closed first closing

theorem isChain_follows_iff (trimmed : ∀ l ∈ ls, trimEnd isBlank l = l) : ls.IsChain Follows ↔ ls.IsChain Parted where
  mp := List.IsChain.imp_of_mem_imp fun a b ha hb => (follows_iff_parted (trimmed a ha) (trimmed b hb)).1
  mpr := List.IsChain.imp_of_mem_imp fun a b ha hb => (follows_iff_parted (trimmed a ha) (trimmed b hb)).2

-- The lines are kept last to first, so that a line is put in front of the one it follows.
theorem isChain_keep (h : kept.IsChain (flip Parted)) (line : String) : (keep kept line).IsChain (flip Parted) := by
  by_cases empty : line = ""
  · subst empty
    cases kept with
    | nil => exact List.isChain_singleton _
    | cons k ks =>
      rw [keep_empty]
      split
      · exact h
      · have apart : Parted k "" := ⟨fun _ => by simp_all, fun _ => by decide⟩
        exact List.isChain_cons_cons.2 ⟨apart, h⟩
  · rw [keep_filled empty, List.isChain_cons]
    refine ⟨fun k hk => ⟨fun blank => absurd blank empty, fun blank => ?_⟩, ?_⟩
    · subst blank
      split at hk
      · rename_i back
        obtain ⟨ks, rfl⟩ := List.head?_eq_some_iff.1 back.1
        exact absurd rfl (((List.isChain_cons.1 h).1 "" hk).1 rfl).1
      · rename_i stays
        exact fun closing => stays ⟨hk, closing⟩
    · split
      · exact h.tail
      · exact h

theorem isChain_foldl_keep (h : kept.IsChain (flip Parted)) (ls : List String) :
    (ls.foldl keep kept).IsChain (flip Parted) := by
  induction ls generalizing kept with
  | nil => exact h
  | cons l r ih => exact ih (isChain_keep h l)

theorem isChain_lines (s : String) : (lines s).IsChain Parted := by
  rw [lines, List.isChain_reverse]
  exact (isChain_foldl_keep .nil _).suffix (List.dropWhile_suffix _)

theorem keep_of_parted (h : ∀ k ∈ kept.head?, Parted k a) : keep kept a = a :: kept := by
  by_cases empty : a = ""
  · subst empty
    cases kept with
    | nil => rfl
    | cons k ks =>
      obtain ⟨blank, -⟩ := h k rfl
      rw [keep_empty, if_neg (by simpa using blank rfl)]
  · rw [keep_filled empty, if_neg]
    rintro ⟨blank, closing⟩
    exact (h "" blank).2 rfl closing

theorem foldl_keep_of_isChain (h : (ls.reverse ++ kept).IsChain (flip Parted)) :
    ls.foldl keep kept = ls.reverse ++ kept := by
  induction ls generalizing kept with
  | nil => rfl
  | cons l r ih =>
    rw [List.reverse_cons, List.append_assoc, List.singleton_append] at h ⊢
    have first : ∀ k ∈ kept.head?, Parted k l := (List.isChain_cons.1 h.right_of_append).1
    rw [List.foldl_cons, keep_of_parted first, ih h]

theorem not_mem_unifyBreaks (t : List Char) : '\r' ∉ unifyBreaks t := by
  rw [unifyBreaks_eq_feeds]
  exact fun inside => absurd (Text.eq_feed_of_mem_feeds inside (by decide)) (by decide)

theorem head?_dropWhile_isEmpty (ls : List String) : (ls.dropWhile (·.isEmpty)).head? ≠ some "" := by
  intro blank
  have stops := List.head?_dropWhile_not (·.isEmpty) ls
  simp [blank] at stops

theorem getLast?_lines_ne_empty (s : String) : (lines s).getLast? ≠ some "" := by
  rw [lines, List.getLast?_reverse]
  exact head?_dropWhile_isEmpty _

theorem cut_intercalate_lines (some : lines s ≠ []) : cut '\n' ("\n".intercalate (lines s)) = lines s :=
  Text.cut_intercalate some fun _ hl inside => (of_mem_lines hl inside).1 rfl

theorem rows_lint (s : String) : rows (lint s) = if lines s = [] then [""] else lines s := by
  rw [lint, Text.rows_ended]
  split
  · simp [*, cut]
  · exact cut_intercalate_lines ‹_›

theorem getLast?_intercalate_lines (s : String) : ("\n".intercalate (lines s)).toList.getLast? ≠ some '\n' := by
  intro feed
  have some : lines s ≠ [] := by
    intro none
    simp [none] at feed
  obtain ⟨u, ended⟩ := List.getLast?_eq_some_iff.1 feed
  have joined : "\n".intercalate (lines s) = .ofList u ++ "\n" := by
    rw [← String.toList_inj, ended]
    simp
  have cuts := cut_intercalate_lines some
  rw [joined, Text.cut_ended] at cuts
  exact getLast?_lines_ne_empty s (by rw [← cuts, List.getLast?_concat])

theorem tidy_lint (s : String) : Tidy (lint s) := by
  have trimmed : ∀ l ∈ rows (lint s), trimEnd isBlank l = l := by
    intro l hl
    rw [rows_lint] at hl
    split at hl
    · obtain rfl := List.mem_singleton.1 hl
      rfl
    · exact trimEnd_of_mem_lines hl
  constructor
  case ended => exact ⟨_, rfl, getLast?_intercalate_lines s⟩
  case feeds =>
    have single : '\r' ∉ ("\n".intercalate (lines s)).toList := by
      refine Text.intercalate_induct (P := ('\r' ∉ ·.toList)) (by decide) (fun ht hu => ?_) (by decide)
        fun l hl inside => not_mem_unifyBreaks _ (of_mem_lines hl inside).2
      simp [ht, hu]
    simpa [lint] using single
  case trimmed => exact trimmed
  case follows =>
    rw [isChain_follows_iff trimmed, rows_lint]
    split
    · exact .singleton _
    · exact isChain_lines s
  case last =>
    intro some l hl
    have solid : lines s ≠ [] := by
      intro none
      exact some (by rw [lint, none]; rfl)
    rw [rows_lint, if_neg solid] at hl
    rw [Text.allBlank_iff (trimEnd_of_mem_lines (List.mem_of_mem_getLast? hl))]
    rintro rfl
    exact getLast?_lines_ne_empty s hl

theorem dropWhile_keep_empty (kept : List String) :
    (keep kept "").dropWhile (·.isEmpty) = kept.dropWhile (·.isEmpty) := by
  cases kept with
  | nil => rfl
  | cons k ks =>
    rw [keep_empty]
    split
    · rfl
    · exact List.dropWhile_cons_of_pos rfl

-- All rows of a tidy text are kept, and nothing of what comes after its last line feed.
theorem lines_of_tidy (h : Tidy s) : lines s = ((rows s).reverse.dropWhile (·.isEmpty)).reverse := by
  obtain ⟨t, rfl, -⟩ := h.ended
  have trimmed := List.map_congr_left h.trimmed
  have chain := (isChain_follows_iff h.trimmed).1 h.follows
  rw [Text.rows_ended, List.map_id'] at trimmed
  rw [Text.rows_ended] at chain ⊢
  have kept : (cut '\n' t).foldl keep [] = (cut '\n' t).reverse ++ [] :=
    foldl_keep_of_isChain (by simpa [List.isChain_reverse, flip] using chain)
  have after : [""].map (trimEnd isBlank) = [""] := rfl
  rw [lines, unifyBreaks_eq h.feeds, String.ofList_toList, Text.cut_ended, List.map_append, trimmed, after,
    List.foldl_append, kept, List.append_nil, List.foldl_cons, List.foldl_nil, dropWhile_keep_empty]

theorem lint_eq_self (h : Tidy s) : lint s = s := by
  have given := lines_of_tidy h
  have last := h.last
  obtain ⟨t, rfl, -⟩ := h.ended
  rw [Text.rows_ended] at given last
  by_cases empty : t = ""
  · subst empty
    rw [lint, given]
    rfl
  · have more : t ++ "\n" ≠ "\n" := fun same => empty (by simpa using same)
    have stops : (cut '\n' t).reverse.dropWhile (·.isEmpty) = (cut '\n' t).reverse := by
      cases back : (cut '\n' t).reverse with
      | nil => rfl
      | cons l r =>
        refine List.dropWhile_cons_of_neg fun blank => last more l ?_ ?_
        · rw [← List.head?_reverse, back]
          rfl
        · simp_all [Text.allBlank]
    rw [lint, given, stops, List.reverse_reverse, Text.intercalate_cut]

theorem map_solid_of_tidy (h : Tidy s) : (solid s).map (trimEnd isBlank) = solid s := by
  have trimmed := h.trimmed
  obtain ⟨t, rfl, -⟩ := h.ended
  rw [Text.rows_ended] at trimmed
  refine (List.map_congr_left fun l hl => ?_).trans (List.map_id _)
  have inside := List.mem_of_mem_filter hl
  rw [Text.cut_ended, List.mem_append, List.mem_singleton] at inside
  obtain row | rfl := inside
  · exact trimmed l row
  · rfl

theorem solid_lint (s : String) :
    solid (lint s) = (solid (.ofList (unifyBreaks s.toList))).map (trimEnd isBlank) := by
  rw [← map_solid_of_tidy (tidy_lint s), Text.map_solid, Text.map_solid, filledLines_lint]

theorem lint_normalizes (source : String) :
    solid (lint source) = (solid (.ofList (unifyBreaks source.toList))).map (trimEnd isBlank) ∧
      Tidy (lint source) ∧ lint (lint source) = lint source :=
  ⟨solid_lint source, tidy_lint source, lint_eq_self (tidy_lint source)⟩

example : lint "<?php\r\n\r\n\r\nclass A   \n\x7b\n\n    public $a;\n\n\x7d\n\n\n" =
    "<?php\n\nclass A\n\x7b\n    public $a;\n\x7d\n" := by decide +kernel

end Lint

end PhpScaffold
