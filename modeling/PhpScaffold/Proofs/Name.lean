import PhpScaffold.Name
import PhpScaffold.Proofs.Text

namespace PhpScaffold.Name

def IsSegment (s : String) : Prop := s ≠ "" ∧ separator ∉ s.toList

instance (s : String) : Decidable (IsSegment s) := inferInstanceAs (Decidable (_ ∧ _))

def ofSegments (segments : List String) : String := "\\".intercalate segments

structure Spells (segments : List String) (name : String) : Prop where
  several : 2 ≤ segments.length
  segment : ∀ s ∈ segments, IsSegment s
  written : name = ofSegments segments ∨ name = "\\" ++ ofSegments segments

theorem IsSegment.exists_cons {s : String} (h : IsSegment s) :
    ∃ c r, s.toList = c :: r ∧ c ≠ separator := by
  cases ht : s.toList with
  | nil => exact absurd (String.toList_eq_nil_iff.1 ht) h.1
  | cons c r =>
    refine ⟨c, r, rfl, ?_⟩
    rintro rfl
    exact h.2 (by simp [ht])

theorem IsSegment.isQualified_eq_false {s : String} (h : IsSegment s) : isQualified s = false := by
  obtain ⟨c, r, written, other⟩ := h.exists_cons
  have none := h.2
  rw [written] at none
  simp [isQualified, written, other, none]

theorem IsSegment.isQualified_absolute_eq_false {s : String} (h : IsSegment s) : isQualified ("\\" ++ s) = false := by
  simp [isQualified, separator, show '\\' ∉ s.toList from h.2]

theorem IsSegment.head?_ne {s : String} (h : IsSegment s) : s.toList.head? ≠ some separator := by
  obtain ⟨c, r, written, other⟩ := h.exists_cons
  simp [written, other]

@[simp] theorem bare_bare (name : String) : bare (bare name) = bare name := by
  simp only [bare, Text.trim, String.toList_ofList, Text.trimBoth_trimBoth]

@[simp] theorem relative_relative (name : String) : relative (relative name) = relative name := by
  simp only [relative, Text.trimStart, String.toList_ofList, List.dropWhile_idempotent]

theorem head?_relative (name : String) : (relative name).toList.head? ≠ some separator := by
  intro first
  have stopped := List.head?_dropWhile_not (· = separator) name.toList
  rw [relative, Text.trimStart, String.toList_ofList] at first
  rw [first] at stopped
  simp at stopped

theorem splitLast_append (scope : String) {short : String} (h : separator ∉ short.toList) :
    splitLast (scope ++ "\\" ++ short) = (scope, short) := by
  have last : ((scope ++ "\\" ++ short).toList.reverse.takeWhile (· ≠ separator)).reverse = short.toList := by
    have ends : (scope ++ "\\" ++ short).toList.reverse =
        short.toList.reverse ++ separator :: scope.toList.reverse := by
      simp [separator]
    rw [ends, Text.takeWhile_ne_append (by simpa using h), List.reverse_reverse]
  simp only [splitLast, last, String.ofList_toList, Prod.mk.injEq, and_true]
  have whole : (scope ++ "\\" ++ short).toList = scope.toList ++ separator :: short.toList := by
    simp [separator]
  rw [whole, List.length_append, List.length_cons,
    show scope.toList.length + (short.toList.length + 1) - short.toList.length - 1 = scope.toList.length by omega,
    List.take_left, String.ofList_toList]

theorem splitLast_of_not_mem {s : String} (h : separator ∉ s.toList) : splitLast s = ("", s) := by
  have last : (s.toList.reverse.takeWhile (· ≠ separator)).reverse = s.toList := by
    rw [Text.takeWhile_ne (by simpa using h), List.reverse_reverse]
  simp only [splitLast, last, Nat.sub_self, Nat.zero_sub, List.take_zero, String.ofList_nil, String.ofList_toList]

theorem splitLast_cases (s : String) : (separator ∉ s.toList ∧ splitLast s = ("", s)) ∨
    ∃ scope short, s = scope ++ "\\" ++ short ∧ separator ∉ short.toList ∧ splitLast s = (scope, short) := by
  by_cases qualified : separator ∈ s.toList
  · obtain ⟨back, front, whole, clear⟩ := List.eq_append_cons_of_mem (List.mem_reverse.2 qualified)
    have forwards : s = .ofList front.reverse ++ "\\" ++ .ofList back.reverse := by
      rw [← String.toList_inj, ← List.reverse_reverse s.toList, whole]
      simp [separator]
    have clear : separator ∉ (String.ofList back.reverse).toList := by simpa using clear
    exact .inr ⟨_, _, forwards, clear, by rw [forwards, splitLast_append _ clear]⟩
  · exact .inl ⟨qualified, splitLast_of_not_mem qualified⟩

theorem head?_bare (name : String) : (bare name).toList.head? ≠ some separator := by
  intro first
  obtain ⟨r, starts⟩ := List.head?_eq_some_iff.1 first
  have kept : (bare name).toList.dropWhile (· = separator) = (bare name).toList := by
    rw [bare, Text.trim, String.toList_ofList, Text.dropWhile_trimBoth]
  rw [starts, List.dropWhile_cons_of_pos (by simp)] at kept
  have shorter := (List.dropWhile_suffix (l := r) (· = separator)).length_le
  rw [kept] at shorter
  exact absurd shorter (Nat.not_succ_le_self _)

theorem getLast?_bare (name : String) : (bare name).toList.getLast? ≠ some separator := by
  intro final
  have trimmed : (bare name).toList = (name.toList.dropWhile (· = separator)).rdropWhile (· = separator) := by
    rw [bare, Text.trim, String.toList_ofList]
    rfl
  rw [trimmed] at final
  obtain ⟨front, ends⟩ := List.getLast?_eq_some_iff.1 final
  have other := List.rdropWhile_last_not (· = separator) (name.toList.dropWhile (· = separator)) (by simp [ends])
  simp [ends] at other

/-- What a name is made of, apart from the backslashes around it: a scope and a last segment, or that alone. -/
structure Parts (name scope short : String) : Prop where
  around : ∃ m n inner, name.toList = List.replicate m separator ++ inner ++ List.replicate n separator ∧
    inner.head? ≠ some separator ∧ inner.getLast? ≠ some separator ∧
    (inner = scope.toList ++ separator :: short.toList ∨ scope = "" ∧ inner = short.toList)
  last : separator ∉ short.toList

theorem parts (name : String) : Parts name (scope name) (short name) := by
  obtain ⟨front, back, whole, before, behind⟩ := Text.exists_trimBoth (· = separator) name.toList
  rw [show Text.trimBoth (· = separator) name.toList = (bare name).toList by rw [bare, Text.trim, String.toList_ofList],
    List.eq_replicate_of_mem fun c hc => of_decide_eq_true (before c hc),
    List.eq_replicate_of_mem fun c hc => of_decide_eq_true (behind c hc)] at whole
  obtain ⟨clear, cut⟩ | ⟨first, last, joined, clear, cut⟩ := splitLast_cases (bare name)
  · rw [scope, short, cut]
    exact ⟨⟨_, _, _, whole, head?_bare name, getLast?_bare name, .inr ⟨rfl, rfl⟩⟩, clear⟩
  · rw [scope, short, cut]
    exact ⟨⟨_, _, _, whole, head?_bare name, getLast?_bare name, .inl (by simp [joined, separator])⟩, clear⟩

theorem segments_ofSegments {names : List String} (filled : names ≠ []) (h : ∀ s ∈ names, IsSegment s) :
    segments (ofSegments names) = names :=
  Text.cut_intercalate filled fun s hs => (h s hs).2

namespace Spells

variable {segments : List String} {name : String}

theorem exists_cons (h : Spells segments name) :
    ∃ c r, (ofSegments segments).toList = c :: r ∧ c ≠ separator := by
  obtain ⟨hlen, hseg, -⟩ := h
  match segments with
  | s :: t :: r =>
    obtain ⟨c, cs, hs, hc⟩ := (hseg s (by simp)).exists_cons
    exact ⟨c, cs ++ ("\\" ++ ofSegments (t :: r)).toList, by simp [ofSegments, hs], hc⟩

theorem exists_last (h : Spells segments name) :
    ∃ scope short, ofSegments segments = scope ++ "\\" ++ short ∧ scope ≠ "" ∧ short ∈ segments := by
  obtain ⟨hlen, hseg, -⟩ := h
  have hne : segments ≠ [] := by rintro rfl; simp at hlen
  obtain ⟨front, last, rfl⟩ : ∃ front last, segments = front ++ [last] :=
    ⟨_, _, (List.dropLast_concat_getLast hne).symm⟩
  match front with
  | [] => simp at hlen
  | s :: r =>
    refine ⟨ofSegments (s :: r), last, ?_, ?_, by simp⟩
    · rw [ofSegments, String.intercalate_append_of_ne_nil (by simp) (by simp), String.intercalate_singleton]
      rfl
    · intro he
      obtain ⟨c, cs, hs, -⟩ := (hseg s (by simp)).exists_cons
      have := congrArg String.toList he
      cases r <;> simp [ofSegments, hs] at this

theorem exists_splitLast (h : Spells segments name) :
    ∃ scope short, ofSegments segments = scope ++ "\\" ++ short ∧ scope ≠ "" ∧ IsSegment short := by
  obtain ⟨scope, short, cut, filled, last⟩ := h.exists_last
  exact ⟨scope, short, cut, filled, h.segment short last⟩

theorem relative_eq (h : Spells segments name) : relative name = ofSegments segments := by
  obtain ⟨c, r, hcr, hc⟩ := h.exists_cons
  have kept : (ofSegments segments).toList.dropWhile (· = separator) = (ofSegments segments).toList := by
    rw [hcr, List.dropWhile_cons_of_neg (by simpa using hc)]
  obtain rfl | rfl := h.written
  · simp only [relative, Text.trimStart, kept, String.ofList_toList]
  · have front : ("\\" ++ ofSegments segments).toList = separator :: (ofSegments segments).toList := by
      simp [separator]
    rw [relative, Text.trimStart, front, List.dropWhile_cons_of_pos (by simp), kept, String.ofList_toList]

theorem isQualified_eq (h : Spells segments name) : isQualified name = true := by
  obtain ⟨c, r, hcr, hc⟩ := h.exists_cons
  obtain ⟨scope, short, hsplit, -, -⟩ := h.exists_splitLast
  have inside : separator ∈ (ofSegments segments).toList := by
    rw [hsplit]
    simp [separator]
  obtain rfl | rfl := h.written
  · rw [hcr] at inside
    simp only [isQualified, hcr, if_neg hc]
    simpa using inside
  · have front : ("\\" ++ ofSegments segments).toList = separator :: (ofSegments segments).toList := by
      simp [separator]
    simp only [isQualified, front, if_true]
    simpa using inside

end Spells

end PhpScaffold.Name
