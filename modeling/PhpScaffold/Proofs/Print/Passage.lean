import PhpScaffold.Print.Member
import PhpScaffold.Proofs.Print.Literal
import PhpScaffold.Proofs.Text.Carried
import Mathlib.Data.Set.List

/-! What becomes of a literal on its way into a file.  Every pass over the text around it leaves a literal of one line
as it is, and leaves the end of the last line of any other; shifting a block moves that end to the right. -/

namespace PhpScaffold

open Text (cut isBlank isLineBreak allBlank trimEnd indent block feeds)
open Print (literal escapeText escapeChar)

namespace Print

open Text (Carried Shifted Led)

theorem escapeText_join (ts : List String) : escapeText (String.join ts) = String.join (ts.map escapeText) := by
  induction ts with
  | nil => simp
  | cons t r ih => simp [ih]

theorem escapeText_feed : escapeText "\n" = "\n" := by decide

variable {v : String}

theorem cut_escapeText_line (h : '\n' ∉ v.toList) : cut '\n' (escapeText v) = [] ++ [escapeText v] := by
  rw [cut_escapeText, cut, List.splitOn_eq_singleton h, List.map_singleton, List.map_singleton, String.ofList_toList]
  rfl

theorem cut_quote : cut '\n' "'" = [] ++ ["'"] := by decide

theorem cut_quote_append {t u : String} {below : List String} (h : cut '\n' t = u :: below) :
    cut '\n' ("'" ++ t) = ("'" ++ u) :: below :=
  Text.cut_append cut_quote h

theorem cut_line_append {t u : String} {below : List String} (line : '\n' ∉ v.toList) (h : cut '\n' t = u :: below) :
    cut '\n' (escapeText v ++ ("'" ++ t)) = (escapeText v ++ ("'" ++ u)) :: below :=
  Text.cut_append (cut_escapeText_line line) (cut_quote_append h)

/-- Whatever stands around a literal, the pass has it, as a relation allows, between texts that do not depend on it. -/
def Passes (R : String → String → Prop) (pass : String → String) : Prop :=
  ∀ a b, ∃ a' b', ∀ v, ∃ w, pass (a ++ (literal v ++ b)) = a' ++ (literal w ++ b') ∧ R v w

theorem Passes.imp {R S : String → String → Prop} {pass : String → String} (h : Passes R pass)
    (weaker : ∀ {v w}, R v w → S v w) : Passes S pass := by
  intro a b
  obtain ⟨a', b', passed⟩ := h a b
  refine ⟨a', b', fun v => ?_⟩
  obtain ⟨w, whole, related⟩ := passed v
  exact ⟨w, whole, weaker related⟩

/-- A change of lines that has what stands on the line before a literal and after it in front of it and after it, and
puts something before its last line. -/
def Linewise (lead : String) (g : List String → List String) : Prop :=
  ∀ above l r below, ∃ above' l' r' below',
    (∀ v, g (above ++ (l ++ (literal v ++ r)) :: below) = above' ++ (l' ++ (literal v ++ r')) :: below') ∧
    ∀ (first : String) (inner : List String) (last : String), ∃ (first' : String) (inner' : List String),
      g (above ++ (l ++ ("'" ++ escapeText first)) ::
          (inner.map escapeText ++ (escapeText last ++ ("'" ++ r)) :: below)) =
        above' ++ (l' ++ ("'" ++ escapeText first')) ::
          (inner'.map escapeText ++ (escapeText (lead ++ last) ++ ("'" ++ r')) :: below')

theorem exists_last_line (h : '\n' ∈ v.toList) : ∃ front last, v = front ++ ("\n" ++ last) ∧ '\n' ∉ last.toList := by
  obtain ⟨s, t, whole, clear⟩ := List.eq_append_cons_of_mem (List.mem_reverse.2 h)
  refine ⟨.ofList t.reverse, .ofList s.reverse, ?_, by simpa using clear⟩
  rw [← String.toList_inj, ← List.reverse_reverse v.toList, whole]
  simp

theorem Linewise.passes {lead : String} {g : List String → List String} (h : Linewise lead g) :
    Passes (Led lead) fun s => "\n".intercalate (g (cut '\n' s)) := by
  intro a b
  obtain none | ⟨above, l, before⟩ := List.eq_nil_or_concat (cut '\n' a)
  · simp [cut] at none
  rw [List.concat_eq_append] at before
  obtain ⟨r, below, after⟩ := List.exists_cons_of_ne_nil (l := cut '\n' b) (by simp [cut])
  obtain ⟨above', l', r', below', single, several⟩ := h above l r below
  refine ⟨String.join (above'.map (· ++ "\n")) ++ l', r' ++ String.join (below'.map ("\n" ++ ·)), fun v => ?_⟩
  -- a literal of several lines shares its first with what is before it and its last with what is after it
  by_cases line : '\n' ∈ v.toList
  · obtain ⟨front, last, rfl, clear⟩ := exists_last_line line
    obtain ⟨first, inner, pieces⟩ := List.exists_cons_of_ne_nil (l := cut '\n' front) (by simp [cut])
    obtain ⟨first', inner', changed⟩ := several first inner last
    have opening : cut '\n' (a ++ ("'" ++ escapeText front)) =
        above ++ (l ++ ("'" ++ escapeText first)) :: inner.map escapeText := by
      refine Text.cut_append before (cut_quote_append ?_)
      rw [cut_escapeText, pieces, List.map_cons]
    have whole : cut '\n' (a ++ (literal (front ++ ("\n" ++ last)) ++ b)) =
        above ++ (l ++ ("'" ++ escapeText first)) ::
          (inner.map escapeText ++ (escapeText last ++ ("'" ++ r)) :: below) := by
      have cuts := Text.cut_append_break '\n' (a ++ ("'" ++ escapeText front)) (escapeText last ++ ("'" ++ b))
      rw [opening, cut_line_append clear after] at cuts
      rw [List.append_assoc, List.cons_append] at cuts
      rw [← cuts]
      simp only [literal, escapeText_append, escapeText_feed, String.append_assoc]
      rfl
    refine ⟨first' ++ (String.join (inner'.map ("\n" ++ ·)) ++ ("\n" ++ (lead ++ last))), ?_, ?_⟩
    · simp only [whole, changed, Text.intercalate_append_cons]
      simp only [literal, escapeText_append, escapeText_join, escapeText_feed, List.map_append, List.map_cons,
        List.map_map, Function.comp_def, String.join_append, String.join_cons, String.append_assoc]
    · exact .inr ⟨_, first' ++ String.join (inner'.map ("\n" ++ ·)), _, rfl, clear, by simp only [String.append_assoc]⟩
  · have whole : cut '\n' (a ++ (literal v ++ b)) = above ++ (l ++ (literal v ++ r)) :: below := by
      refine Text.cut_append before ?_
      simp only [literal, String.append_assoc]
      exact cut_quote_append (cut_line_append line after)
    refine ⟨v, ?_, .inl ⟨line, rfl⟩⟩
    simp only [whole, single, Text.intercalate_append_cons, String.append_assoc]

theorem escapeText_unit : escapeText unit = unit := by decide

theorem quote_mem_line (l r : String) : '\'' ∈ (l ++ ("'" ++ r)).toList := by simp

theorem linewise_map {g : List String → List String} {head f : String → String}
    (each : ∀ l ls, g (l :: ls) = head l :: ls.map f)
    (front : ∀ l r, head (l ++ ("'" ++ r)) = unit ++ l ++ ("'" ++ r))
    (quote : ∀ l r, f (l ++ ("'" ++ r)) = unit ++ l ++ ("'" ++ r))
    (escaped : ∀ l, f (escapeText l) = escapeText (f l)) : Linewise unit g := by
  intro above l r below
  cases above with
  | nil =>
    refine ⟨[], unit ++ l, r, below.map f, fun v => ?_, fun first inner last => ⟨first, inner.map f, ?_⟩⟩
    · rw [List.nil_append, each, literal, String.append_assoc, front]
      rfl
    · simp only [List.nil_append, each, front, List.map_append, List.map_cons, List.map_map, Function.comp_def, quote,
        escaped, escapeText_append, escapeText_unit]
  | cons x xs =>
    refine ⟨head x :: xs.map f, unit ++ l, r, below.map f, fun v => ?_, fun first inner last =>
      ⟨first, inner.map f, ?_⟩⟩
    · rw [List.cons_append, each, List.map_append, List.map_cons, literal, String.append_assoc, quote]
      rfl
    · simp only [List.cons_append, each, List.map_append, List.map_cons, List.map_map, Function.comp_def, quote,
        escaped, escapeText_append, escapeText_unit]

def indentLine (l : String) : String := if allBlank l then "" else unit ++ l

theorem indentLine_quote (l r : String) : indentLine (l ++ ("'" ++ r)) = unit ++ l ++ ("'" ++ r) := by
  have filled : allBlank (l ++ ("'" ++ r)) = false := by
    rw [allBlank, List.all_eq_false]
    exact ⟨'\'', quote_mem_line l r, by decide⟩
  rw [indentLine, filled, String.append_assoc]
  rfl

theorem indentLine_escapeText (l : String) : indentLine (escapeText l) = escapeText (indentLine l) := by
  rw [indentLine, allBlank_escapeText, indentLine]
  split
  · rfl
  · rw [escapeText_append, escapeText_unit]

theorem passes_indent : Passes Carried indent := by
  have linewise : Linewise unit (List.map indentLine) :=
    linewise_map (fun _ _ => rfl) indentLine_quote indentLine_quote indentLine_escapeText
  exact linewise.passes.imp fun led => led.carried

def shiftLine (l : String) : String := if l.isEmpty then l else unit ++ l

theorem shiftLine_quote (l r : String) : shiftLine (l ++ ("'" ++ r)) = unit ++ l ++ ("'" ++ r) := by
  have some : l ++ ("'" ++ r) ≠ "" := by
    intro empty
    have inside := quote_mem_line l r
    simp [empty] at inside
  rw [shiftLine, if_neg (by simp), String.append_assoc]

theorem shiftLine_escapeText (l : String) : shiftLine (escapeText l) = escapeText (shiftLine l) := by
  unfold shiftLine
  by_cases empty : l = ""
  · subst empty
    decide
  · rw [if_neg (by simpa [escapeText_eq_empty] using empty), if_neg (by simpa using empty), escapeText_append,
      escapeText_unit]

def shiftLines : List String → List String
  | [] => [unit]
  | l :: ls => (unit ++ l) :: ls.map shiftLine

theorem block_eq (s : String) : block unit true false s = "\n".intercalate (shiftLines (Text.lines (s ++ "\n"))) := by
  rw [block]
  cases Text.lines (s ++ "\n") with
  | nil => simp [shiftLines]
  | cons l ls =>
    simp only [if_true, Bool.not_false, Bool.and_true, shiftLines]
    rfl

theorem linewise_shiftLines : Linewise unit shiftLines :=
  linewise_map (fun _ _ => rfl) (fun _ _ => String.append_assoc.symm) shiftLine_quote shiftLine_escapeText

theorem exists_of_escaped_eq {t u : List Char} (h : t.flatMap escapeChar = '\n' :: u) : ∃ r, t = '\n' :: r := by
  cases t with
  | nil => cases h
  | cons c r =>
    rw [List.flatMap_cons] at h
    obtain ⟨-, written⟩ | written := escapeChar_cases c
    · rw [written] at h
      exact absurd (List.cons.inj h).1 (by decide)
    · rw [written] at h
      exact ⟨r, by rw [(List.cons.inj h).1]⟩

theorem feeds_escaped {p : Char → Bool} (slash : p '\\' = false) (quote : p '\'' = false) (t : List Char) :
    feeds p (t.flatMap escapeChar) = (feeds p t).flatMap escapeChar := by
  fun_induction feeds p t with
  | case1 => rfl
  | case2 r ih =>
    have carriage : escapeChar '\r' = ['\r'] := by decide
    have feed : escapeChar '\n' = ['\n'] := by decide
    rw [List.flatMap_cons, List.flatMap_cons, List.flatMap_cons, ← ih, carriage, feed]
    simp only [List.singleton_append, feeds]
  | case3 c r other ih =>
    rw [List.flatMap_cons, List.flatMap_cons, ← ih]
    obtain ⟨special, written⟩ | written := escapeChar_cases c
    · have stays : p c = false := by
        obtain rfl | rfl := special
        · exact slash
        · exact quote
      have within : c ≠ '\r' := by
        rintro rfl
        simp at special
      rw [written, List.cons_append, Text.feeds_cons (by rintro r' ⟨⟩), List.singleton_append,
        Text.feeds_cons fun _ carriage => absurd carriage within]
      simp [slash, stays, written]
    · have apart : ∀ r', c = '\r' → r.flatMap escapeChar ≠ '\n' :: r' := by
        intro r' carriage next
        obtain ⟨s, rfl⟩ := exists_of_escaped_eq next
        exact other s carriage rfl
      rw [written, List.singleton_append, Text.feeds_cons apart]
      split
      · rfl
      · rw [written, List.singleton_append]

theorem feeds_literal {p : Char → Bool} (slash : p '\\' = false) (quote : p '\'' = false) (a v b : List Char) :
    feeds p (a ++ '\'' :: (v.flatMap escapeChar ++ '\'' :: b)) =
      feeds p a ++ '\'' :: ((feeds p v).flatMap escapeChar ++ '\'' :: feeds p b) := by
  rw [Text.feeds_append_cons (by decide) (by decide) quote, Text.feeds_append_cons (by decide) (by decide) quote,
    feeds_escaped slash quote]

theorem toList_literal (a v b : String) :
    (a ++ (literal v ++ b)).toList = a.toList ++ '\'' :: (v.toList.flatMap escapeChar ++ '\'' :: b.toList) := by
  simp [literal, toList_escapeText]

theorem ofList_literal (a v b : List Char) :
    String.ofList (a ++ '\'' :: (v.flatMap escapeChar ++ '\'' :: b)) =
      .ofList a ++ (literal (.ofList v) ++ .ofList b) := by
  rw [← String.toList_inj, toList_literal]
  simp

theorem passes_block : Passes Shifted (block unit true false) := by
  intro a b
  obtain ⟨b₁, ended⟩ := Text.exists_feeds_append_feed isLineBreak b.toList
  obtain ⟨a', b', passed⟩ := linewise_shiftLines.passes (.ofList (feeds isLineBreak a.toList)) (.ofList b₁)
  refine ⟨a', b', fun v => ?_⟩
  obtain ⟨w, whole, led⟩ := passed (.ofList (feeds isLineBreak v.toList))
  have fed : feeds isLineBreak ((a ++ (literal v ++ b)).toList ++ ['\n']) =
      (feeds isLineBreak a.toList ++
        '\'' :: ((feeds isLineBreak v.toList).flatMap escapeChar ++ '\'' :: b₁)) ++ ['\n'] := by
    have opened := feeds_literal (p := isLineBreak) (by decide) (by decide) a.toList v.toList (b.toList ++ ['\n'])
    rw [ended] at opened
    rw [toList_literal]
    simpa using opened
  refine ⟨w, ?_, (Text.carried_feeds (fun _ => id) v).trans_shifted
    (led.shifted (Text.isPlain_feeds v.toList) (by decide) (by decide))⟩
  rw [block_eq, Text.lines_of_feeds fed, ofList_literal]
  exact whole

theorem passes_replace : Passes Carried (Text.replace '\n' ' ') := by
  intro a b
  refine ⟨Text.replace '\n' ' ' a, Text.replace '\n' ' ' b, fun v =>
    ⟨Text.replace '\n' ' ' v, ?_, Text.carried_replace v⟩⟩
  have append (s t : String) : Text.replace '\n' ' ' (s ++ t) = Text.replace '\n' ' ' s ++ Text.replace '\n' ' ' t := by
    rw [← String.toList_inj]
    simp [Text.replace]
  have quote : Text.replace '\n' ' ' "'" = "'" := by
    rw [← String.toList_inj, Text.replace, String.toList_map]
    decide
  simp only [append, literal, quote, replace_escapeText]

end Print

namespace Lint

theorem keep_quote {line : String} (quote : '\'' ∈ line.toList) (kept : List String) :
    keep kept line = line :: kept := by
  have filled : line ≠ "" := by
    rintro rfl
    cases quote
  have stays : '\'' ∈ (Text.trimStart isBlank line).toList := by
    rw [← List.takeWhile_append_dropWhile (p := isBlank) (l := line.toList), List.mem_append] at quote
    rw [Text.trimStart, String.toList_ofList]
    exact quote.resolve_left fun blank => absurd (List.mem_takeWhile_imp blank) (by decide)
  have goesOn : closesBlock line = false := by
    rw [closesBlock, decide_eq_false_iff_not]
    intro brace
    rw [brace] at stays
    exact absurd stays (by decide)
  rw [keep_filled filled, goesOn]
  simp

/-- Over a line with something on it, lines are kept in the same way whatever is below. -/
theorem exists_keep_above (opens : Bool) (kept : List String) (line : String) :
    ∃ kept', (∀ top rest, top ≠ "" → opensBlock top = opens →
      keep (kept ++ top :: rest) line = kept' ++ top :: rest) ∧ ∀ l ∈ kept', l = "" ∨ l = line ∨ l ∈ kept := by
  by_cases empty : line = ""
  · subst empty
    cases kept with
    | nil =>
      refine ⟨if opens then [] else [""], fun top rest filled alike => ?_, by grind⟩
      rw [List.nil_append, keep_empty, alike]
      cases opens <;> simp [filled]
    | cons k ks =>
      refine ⟨if k.isEmpty || opensBlock k then k :: ks else "" :: k :: ks, fun top rest filled alike => ?_, by grind⟩
      rw [List.cons_append, keep_empty]
      split <;> rfl
  · cases kept with
    | nil =>
      refine ⟨[line], fun top rest filled alike => ?_, by simp⟩
      rw [keep_filled empty, List.nil_append, List.head?_cons, if_neg (by simp [filled])]
      rfl
    | cons k ks =>
      refine ⟨line :: if k = "" ∧ closesBlock line then ks else k :: ks, fun top rest filled alike => ?_, by grind⟩
      simp only [keep_filled empty, List.cons_append, List.head?_cons, Option.some.injEq]
      split <;> rfl

theorem exists_foldl_keep_above (opens : Bool) (ls : List String) :
    ∃ kept, (∀ top rest, top ≠ "" → opensBlock top = opens →
      ls.foldl keep (top :: rest) = kept ++ top :: rest) ∧ ∀ l ∈ kept, l = "" ∨ l ∈ ls := by
  induction ls using List.reverseRecOn with
  | nil => exact ⟨[], fun _ _ _ _ => rfl, by simp⟩
  | append_singleton r line ih =>
    obtain ⟨kept, before, among⟩ := ih
    obtain ⟨kept', step, more⟩ := exists_keep_above opens kept line
    refine ⟨kept', fun top rest some alike => ?_, fun l hl => ?_⟩
    · rw [List.foldl_append, before top rest some alike]
      exact step top rest some alike
    · obtain empty | rfl | earlier := more l hl
      · exact .inl empty
      · exact .inr (by simp)
      · obtain empty | later := among l earlier
        · exact .inl empty
        · exact .inr (by simp [later])

def tidy (ls : List String) : List String :=
  (((ls.map (trimEnd isBlank)).foldl keep []).dropWhile (·.isEmpty)).reverse

theorem lint_eq (s : String) :
    lint s = "\n".intercalate (tidy (cut '\n' (.ofList (feeds (· = '\r') s.toList)))) ++ "\n" := by
  rw [lint, lines, unifyBreaks_eq_feeds]
  rfl

open Print (Linewise Passes quote_mem_line)
open Text (Carried)

theorem trimEnd_quote (l r : String) : trimEnd isBlank (l ++ ("'" ++ r)) = l ++ ("'" ++ trimEnd isBlank r) := by
  have ended : trimEnd isBlank ("'" ++ r) = "'" ++ trimEnd isBlank r := by
    rw [Text.trimEnd_append]
    split
    · rename_i blank
      rw [blank]
      decide
    · rfl
  rw [Text.trimEnd_append, ended, if_neg (by simp)]

theorem opensBlock_quote (l r : String) : opensBlock (l ++ ("'" ++ r)) = opensBlock ("'" ++ r) := by
  rw [opensBlock, String.toList_append, List.getLast?_append_of_ne_nil _ (by simp), opensBlock]

theorem dropWhile_above {kept rest : List String} {line : String} (filled : line ≠ "") :
    (kept ++ line :: rest).dropWhile (·.isEmpty) = kept.dropWhile (·.isEmpty) ++ line :: rest := by
  have stops : (line :: rest).dropWhile (·.isEmpty) = line :: rest := by
    rw [List.dropWhile_cons_of_neg (by simpa using filled)]
  rw [List.dropWhile_append, stops]
  split
  · rename_i none
    rw [List.isEmpty_iff.1 none, List.nil_append]
  · rfl

theorem linewise_tidy : Linewise "" tidy := by
  intro above l r below
  obtain ⟨after, kept, -⟩ := exists_foldl_keep_above (opensBlock ("'" ++ trimEnd isBlank r))
    (below.map (trimEnd isBlank))
  have ne_empty (l : String) : l ++ ("'" ++ trimEnd isBlank r) ≠ "" := by simp
  refine ⟨((above.map (trimEnd isBlank)).foldl keep []).reverse, l, trimEnd isBlank r,
    (after.dropWhile (·.isEmpty)).reverse, fun v => ?_, fun first inner last => ?_⟩
  · have line : l ++ (literal v ++ r) = l ++ ("'" ++ escapeText v) ++ ("'" ++ r) := by
      simp only [literal, String.append_assoc]
    rw [tidy, List.map_append, List.map_cons, List.foldl_append, List.foldl_cons, line, trimEnd_quote,
      keep_quote (quote_mem_line _ _), kept _ _ (ne_empty _) (opensBlock_quote _ _), dropWhile_above (ne_empty _)]
    simp [literal, String.append_assoc]
  · -- the first line and the last have a quote in them and stay; what is kept between them was escaped
    let top := l ++ ("'" ++ escapeText (trimEnd isBlank first))
    obtain ⟨between, gap, among⟩ := exists_foldl_keep_above (opensBlock top)
      ((inner.map escapeText).map (trimEnd isBlank))
    obtain ⟨lines, rfl⟩ : between ∈ Set.range (List.map escapeText) := by
      rw [Set.range_list_map]
      intro m hm
      obtain rfl | inside := among m hm
      · exact ⟨"", rfl⟩
      · obtain ⟨n, hn, rfl⟩ := List.mem_map.1 inside
        obtain ⟨k, -, rfl⟩ := List.mem_map.1 hn
        exact ⟨_, (Print.trimEnd_escapeText k).symm⟩
    refine ⟨trimEnd isBlank first, lines.reverse, ?_⟩
    have opening : trimEnd isBlank (l ++ ("'" ++ escapeText first)) = top := by
      rw [trimEnd_quote, Print.trimEnd_escapeText]
    rw [tidy, List.map_append, List.map_cons, List.map_append, List.map_cons, List.foldl_append, List.foldl_cons,
      List.foldl_append, List.foldl_cons, opening, keep_quote (quote_mem_line _ _), gap _ _ (by simp [top]) rfl,
      trimEnd_quote, keep_quote (quote_mem_line _ _), kept _ _ (ne_empty _) (opensBlock_quote _ _),
      dropWhile_above (ne_empty _)]
    simp [top]

theorem passes_lint : Passes Carried lint := by
  intro a b
  have carriage (c : Char) (h : decide (c = '\r')) : isLineBreak c := by
    obtain rfl := of_decide_eq_true h
    decide
  obtain ⟨a', b', passed⟩ := linewise_tidy.passes (.ofList (feeds (· = '\r') a.toList))
    (.ofList (feeds (· = '\r') b.toList))
  refine ⟨a', b' ++ "\n", fun v => ?_⟩
  obtain ⟨w, whole, led⟩ := passed (.ofList (feeds (· = '\r') v.toList))
  refine ⟨w, ?_, (Text.carried_feeds carriage v).trans led.carried⟩
  rw [lint_eq, Print.toList_literal, Print.feeds_literal (by decide) (by decide), Print.ofList_literal]
  simp only at whole
  rw [whole, String.append_assoc, String.append_assoc]

end Lint

end PhpScaffold
