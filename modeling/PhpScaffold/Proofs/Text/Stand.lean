import PhpScaffold.Proofs.Text.Word
import Mathlib.Data.List.Infix

namespace PhpScaffold

namespace Text

open Decimal (OneLine)

def StandsIn (s t : String) : Prop := cut '\n' s <:+: cut '\n' t

def Ended (a : String) : Prop := a = "" ∨ ∃ b, a = b ++ "\n"

variable {a b l s t u : String} {ts : List String}

namespace StandsIn

theorem refl (s : String) : StandsIn s s := List.infix_refl _

theorem trans (h : StandsIn s t) (further : StandsIn t u) : StandsIn s u := List.IsInfix.trans h further

theorem front (s b : String) : StandsIn s (s ++ ("\n" ++ b)) := by
  rw [StandsIn, show "\n" = String.singleton '\n' from rfl, cut_append_break]
  exact List.infix_append [] _ _

theorem back (a s : String) : StandsIn s (a ++ ("\n" ++ s)) := by
  rw [StandsIn, show "\n" = String.singleton '\n' from rfl, cut_append_break]
  exact (List.suffix_append _ _).isInfix

theorem around (a s b : String) : StandsIn s (a ++ ("\n" ++ (s ++ ("\n" ++ b)))) := (front s b).trans (back a _)

theorem after (h : Ended a) (s : String) : StandsIn s (a ++ s) := by
  obtain rfl | ⟨b, rfl⟩ := h
  · rw [String.empty_append]
    exact refl s
  · rw [String.append_assoc]
    exact back b s

theorem intercalate (h : s ∈ ts) : StandsIn s ("\n".intercalate ts) := by
  obtain ⟨before, after, rfl⟩ := List.append_of_mem h
  induction before with
  | nil =>
    cases after with
    | nil => exact refl s
    | cons t r =>
      rw [List.nil_append, String.intercalate_cons_cons, String.append_assoc]
      exact front s _
  | cons t r ih =>
    obtain ⟨u, v, cons⟩ := List.exists_cons_of_ne_nil (show r ++ s :: after ≠ [] by simp)
    have within := ih (by simp)
    rw [cons] at within
    rw [List.cons_append, cons, String.intercalate_cons_cons, String.append_assoc]
    exact within.trans (back t _)

theorem join (h : s ∈ ts) (b : String) : StandsIn s (String.join (ts.map (· ++ "\n")) ++ b) := by
  obtain ⟨before, after, rfl⟩ := List.append_of_mem h
  induction before with
  | nil =>
    rw [List.nil_append, List.map_cons, String.join_cons, String.append_assoc, String.append_assoc]
    exact front s _
  | cons t r ih =>
    rw [List.cons_append, List.map_cons, String.join_cons, String.append_assoc]
    exact (ih (by simp)).trans (StandsIn.after (.inr ⟨t, rfl⟩) _)

theorem words (h : StandsIn s t) : Text.words s.toList <:+: Text.words t.toList := by
  rw [← words_cut s, ← words_cut t]
  exact List.IsInfix.flatMap h _

end StandsIn

theorem ended_join (ts : List String) : Ended (String.join (ts.map (· ++ "\n"))) := by
  cases ts using List.reverseRecOn with
  | nil => exact .inl rfl
  | append_singleton r t =>
    exact .inr ⟨String.join (r.map (· ++ "\n")) ++ t, by simp [String.join_append, String.append_assoc]⟩

theorem cut_of_not_mem (h : '\n' ∉ l.toList) : cut '\n' l = [l] := by
  rw [cut, List.splitOn_eq_singleton h, List.map_singleton, String.ofList_toList]

theorem mem_cut (h : '\n' ∉ l.toList) : l ∈ cut '\n' t ↔ StandsIn l t := by
  rw [StandsIn, cut_of_not_mem h]
  exact (List.singleton_infix_iff _ _).symm

theorem mem_cut_feeds {p : Char → Bool} (only : ∀ c, p c → isLineBreak c) (h : l ∈ cut '\n' s)
    (line : OneLine l.toList) : l ∈ cut '\n' (.ofList (feeds p s.toList)) := by
  have clear : '\n' ∉ l.toList := not_mem_of_oneLine line (by decide)
  obtain ⟨before, after, lines⟩ := List.append_of_mem h
  -- what stands from the line on is fed first, then what stands before it
  have whole := intercalate_cut_singleton '\n' s
  have rest : l ∈ cut '\n' (.ofList (feeds p ((String.singleton '\n').intercalate (l :: after)).toList)) := by
    cases after with
    | nil =>
      rw [String.intercalate_singleton, feeds_of_oneLine only line, String.ofList_toList, cut_of_not_mem clear]
      exact List.mem_singleton_self l
    | cons m r =>
      rw [String.intercalate_cons_cons, String.append_assoc, String.toList_append, String.toList_append,
        String.toList_singleton, List.singleton_append, feeds_oneLine_append only line, mem_cut clear]
      have split (u : List Char) : String.ofList (l.toList ++ '\n' :: u) = l ++ ("\n" ++ .ofList u) := by
        rw [← String.toList_inj]
        simp
      rw [split]
      exact .front l _
  rw [lines] at whole
  cases before with
  | nil => rwa [← whole]
  | cons m r =>
    have joined : s.toList = ((String.singleton '\n').intercalate (m :: r)).toList ++
        '\n' :: ((String.singleton '\n').intercalate (l :: after)).toList := by
      rw [← whole, String.intercalate_append_of_ne_nil (by simp) (by simp)]
      simp
    obtain ⟨u, fed⟩ := exists_feeds_append_feed_cons p ((String.singleton '\n').intercalate (m :: r)).toList
      ((String.singleton '\n').intercalate (l :: after)).toList
    have split (v : List Char) : String.ofList (u ++ '\n' :: v) = .ofList u ++ ("\n" ++ .ofList v) := by
      rw [← String.toList_inj]
      simp
    rw [joined, fed, split, mem_cut clear]
    exact ((mem_cut clear).1 rest).trans (.back _ _)

theorem mem_lines (h : l ∈ cut '\n' s) (line : OneLine l.toList) (filled : l ≠ "") : l ∈ lines (s ++ "\n") := by
  obtain ⟨u, fed⟩ := exists_feeds_append_feed isLineBreak s.toList
  have clear : '\n' ∉ l.toList := not_mem_of_oneLine line (by decide)
  have ended : l ∈ cut '\n' (s ++ "\n") := by
    rw [mem_cut clear] at h ⊢
    exact h.trans (by simpa using StandsIn.front s "")
  have inside := mem_cut_feeds (fun c => id) ended line
  rw [String.toList_append, show "\n".toList = ['\n'] from rfl, fed, String.ofList_append] at inside
  have cuts := cut_append_break '\n' (.ofList u) ""
  rw [String.append_empty] at cuts
  rw [show String.ofList ['\n'] = String.singleton '\n' from rfl, cuts, List.mem_append] at inside
  rw [lines_of_feeds fed]
  refine inside.resolve_right fun empty => filled ?_
  simpa [cut] using empty

theorem mem_cut_block (h : l ∈ cut '\n' s) (line : OneLine l.toList) (filled : l ≠ "") :
    Print.unit ++ l ∈ cut '\n' (block Print.unit true false s) := by
  have within := mem_lines h line filled
  have clear : '\n' ∉ (Print.unit ++ l).toList := by
    rw [String.toList_append, List.mem_append, not_or]
    exact ⟨by decide, not_mem_of_oneLine line (by decide)⟩
  rw [Print.block_eq, mem_cut clear]
  apply StandsIn.intercalate
  cases read : lines (s ++ "\n") with
  | nil => simp [read] at within
  | cons m r =>
    rw [read] at within
    obtain rfl | later := List.mem_cons.1 within
    · exact List.mem_cons_self
    · refine List.mem_cons_of_mem _ (List.mem_map.2 ⟨l, later, ?_⟩)
      rw [Print.shiftLine, if_neg (by simpa using filled)]

end Text

namespace Lint

open Text (cut isBlank trimEnd)

theorem mem_cut_lint {l s : String} (h : l ∈ cut '\n' s) (line : Decimal.OneLine l.toList)
    (filled : trimEnd isBlank l ≠ "") : trimEnd isBlank l ∈ cut '\n' (lint s) := by
  have carriage (c : Char) (h : decide (c = '\r') = true) : Text.isLineBreak c := by
    obtain rfl := of_decide_eq_true h
    decide
  have within : trimEnd isBlank l ∈ lines s := by
    have kept : trimEnd isBlank l ∈ Text.filled (lines s) := by
      rw [filled_lines, unifyBreaks_eq_feeds]
      exact List.mem_filter.2 ⟨List.mem_map.2 ⟨l, Text.mem_cut_feeds carriage h line, rfl⟩, by simpa using filled⟩
    exact (List.mem_filter.1 kept).1
  have clear : '\n' ∉ (trimEnd isBlank l).toList := fun inside => (of_mem_lines within inside).1 rfl
  rw [lint, Text.mem_cut clear]
  exact (Text.StandsIn.intercalate within).trans (by simpa using Text.StandsIn.front ("\n".intercalate (lines s)) "")

end Lint

end PhpScaffold
