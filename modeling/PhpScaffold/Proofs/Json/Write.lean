import PhpScaffold.Fault
import PhpScaffold.Json.Write
import PhpScaffold.Proofs.Text

namespace PhpScaffold

namespace Text

variable {n : Nat} {t u : List Char}

def IsBasic (c : Char) : Prop := c.toNat < 128

instance (c : Char) : Decidable (IsBasic c) := inferInstanceAs (Decidable (_ < _))

theorem IsBasic.isMark {c : Char} (h : IsBasic c) : isMark c = false := by
  unfold IsBasic at h
  rw [Text.isMark, decide_eq_false_iff_not, markCode]
  omega

theorem IsBasic.code {c : Char} (h : IsBasic c) : code c = c.toNat := by
  unfold IsBasic at h
  rw [Text.code, if_neg]
  simp only [isTaken, markCode, Bool.and_eq_true, decide_eq_true_eq]
  omega

theorem isHalf_eq_false (h : n ≤ 128) : isHalf n = false := by
  simp only [isHalf, isHigh, isLow, Bool.or_eq_false_iff, Bool.and_eq_false_iff, decide_eq_false_iff_not]
  omega

def Holds (t : List Char) (n : Nat) : Prop := n ∈ codes t ∧ isHalf n = true

theorem holds_unmarked {c : Char} (h : isMark c = false) :
    Holds (c :: t) n ↔ (n = code c ∧ isHalf n = true) ∨ Holds t n := by
  rw [Holds, Holds, codes_cons h, List.mem_cons, or_and_right]

theorem holds_marked {m c : Char} (h : isMark m = true) :
    Holds (m :: c :: t) n ↔ (n = c.toNat + 1 ∧ isHalf n = true) ∨ Holds t n := by
  rw [Holds, Holds, codes, if_pos h, List.mem_cons, or_and_right]

theorem holds_basic {c : Char} (h : IsBasic c) : Holds (c :: t) n ↔ Holds t n := by
  rw [holds_unmarked h.isMark, h.code, or_iff_right]
  rintro ⟨rfl, half⟩
  rw [isHalf_eq_false (Nat.le_of_lt h)] at half
  cases half

theorem holds_marked_basic {m c : Char} (mark : isMark m = true) (h : IsBasic c) :
    Holds (m :: c :: t) n ↔ Holds t n := by
  rw [holds_marked mark, or_iff_right]
  rintro ⟨rfl, half⟩
  rw [isHalf_eq_false h] at half
  cases half

theorem holds_basic_append (h : ∀ c ∈ t, IsBasic c) : Holds (t ++ u) n ↔ Holds u n := by
  induction t with
  | nil => rfl
  | cons c r ih =>
    obtain ⟨first, rest⟩ := List.forall_mem_cons.1 h
    rw [List.cons_append, holds_basic first, ih rest]

theorem holds_append (h : ∀ c ∈ u.head?, IsBasic c) (held : Holds (t ++ u) n) : Holds t n ∨ Holds u n := by
  -- a half may be spelled by two characters, so the cases are those of the reader and not of the list
  fun_induction codes t with
  | case1 => exact .inr held
  | case2 c =>
    cases mark : isMark c with
    | false => exact ((holds_unmarked mark).1 held).imp_left fun here => (holds_unmarked mark).2 (.inl here)
    | true =>
      obtain _ | ⟨d, r⟩ := u
      · exact .inl held
      · have basic := h d rfl
        exact .inr ((holds_basic basic).2 ((holds_marked_basic mark basic).1 held))
  | case3 c d r mark ih =>
    obtain here | later := (holds_marked mark).1 held
    · exact .inl ((holds_marked mark).2 (.inl here))
    · exact (ih later).imp_left fun held => (holds_marked mark).2 (.inr held)
  | case4 c d r mark ih =>
    have mark : isMark c = false := by simpa using mark
    obtain here | later := (holds_unmarked mark).1 held
    · exact .inl ((holds_unmarked mark).2 (.inl here))
    · exact (ih later).imp_left fun held => (holds_unmarked mark).2 (.inr held)

end Text

def IsStorable (s : String) : Prop := ∀ n, ¬ Text.Holds s.toList n

theorem storable_eq_ok {s : String} : storable s = .ok () ↔ IsStorable s := by
  have halves : Text.firstHalves? s = none ↔ IsStorable s := by
    rw [Text.firstHalves?, Text.halves?_eq_none]
    simp [IsStorable, Text.Holds]
  rw [storable, ← halves]
  cases Text.firstHalves? s with
  | none => exact ⟨fun _ => rfl, fun _ => rfl⟩
  | some x => exact iff_of_false (by simp) (by simp)

instance (s : String) : Decidable (IsStorable s) :=
  decidable_of_iff (Text.firstHalves? s = none) <| by
    rw [Text.firstHalves?, Text.halves?_eq_none]
    simp [IsStorable, Text.Holds]

namespace Json

open Text (Holds IsBasic)

theorem escapeChar_cases (c : Char) : escapeChar c = [c] ∨
    ∃ x r, escapeChar c = x :: r ∧ ∀ d ∈ x :: r, IsBasic d := by
  unfold escapeChar
  cases escaped : escapes.lookup c with
  | some d =>
    have basic : ∀ e ∈ escapes, ∀ d ∈ ['\\', e.2], IsBasic d := by decide
    obtain ⟨before, after, all, -⟩ := List.lookup_eq_some_iff.1 escaped
    exact .inr ⟨_, _, rfl, basic (c, d) (all ▸ by simp)⟩
  | none =>
    dsimp only
    split
    · rename_i small
      have digits : ∀ n < 0x20, ∀ d ∈ '\\' :: 'u' :: Text.hex 4 n, IsBasic d := by decide +kernel
      exact .inr ⟨_, _, rfl, digits _ small⟩
    · exact .inl rfl

theorem escapeChar_mark {c : Char} (h : Text.isMark c = true) : escapeChar c = [c] := by
  obtain rfl : c = Char.ofNat Text.markCode := by
    rw [← of_decide_eq_true h, Char.ofNat_toNat]
  decide +kernel

theorem holds_of_escaped {n : Nat} {t : List Char} (h : Holds (t.flatMap escapeChar) n) : Holds t n := by
  fun_induction Text.codes t with
  | case1 => exact h
  | case2 c =>
    rw [List.flatMap_singleton] at h
    obtain same | ⟨x, r, made, basic⟩ := escapeChar_cases c
    · rwa [same] at h
    · rw [made, ← List.append_nil (x :: r), Text.holds_basic_append basic] at h
      cases h.1
  | case3 c d r mark ih =>
    rw [List.flatMap_cons, List.flatMap_cons, escapeChar_mark mark, List.singleton_append] at h
    rw [Text.holds_marked mark]
    obtain same | ⟨x, s, made, basic⟩ := escapeChar_cases d
    · rw [same, List.singleton_append, Text.holds_marked mark] at h
      exact h.imp_right ih
    · obtain ⟨first, rest⟩ := List.forall_mem_cons.1 basic
      rw [made, List.cons_append, Text.holds_marked_basic mark first, Text.holds_basic_append rest] at h
      exact .inr (ih h)
  | case4 c d r mark ih =>
    have mark : Text.isMark c = false := by simpa using mark
    rw [List.flatMap_cons] at h
    rw [Text.holds_unmarked mark]
    obtain same | ⟨x, s, made, basic⟩ := escapeChar_cases c
    · rw [same, List.singleton_append, Text.holds_unmarked mark] at h
      exact h.imp_right ih
    · rw [made, Text.holds_basic_append basic] at h
      exact .inr (ih h)

structure IsPart (s : String) : Prop where
  storable : IsStorable s
  start : ∀ c ∈ s.toList.head?, IsBasic c

theorem isPart_of_basic {s : String} (h : ∀ c ∈ s.toList, IsBasic c) : IsPart s where
  storable n held := by
    rw [← List.append_nil s.toList, Text.holds_basic_append h] at held
    cases held.1
  start c hc := h c (List.mem_of_mem_head? hc)

namespace IsPart

variable {s t : String}

theorem append (hs : IsPart s) (ht : IsPart t) : IsPart (s ++ t) where
  storable n held := by
    rw [String.toList_append] at held
    exact (Text.holds_append ht.start held).elim (hs.storable n) (ht.storable n)
  start c hc := by
    rw [String.toList_append, List.head?_append] at hc
    obtain first | ⟨-, second⟩ := Option.or_eq_some_iff.1 (Option.mem_def.1 hc)
    · exact hs.start c first
    · exact ht.start c second

theorem intercalate (hs : IsPart s) {l : List String} (h : ∀ t ∈ l, IsPart t) : IsPart (s.intercalate l) :=
  Text.intercalate_induct (isPart_of_basic (by decide)) append hs h

end IsPart

theorem isPart_writeText {s : String} (h : IsStorable s) : IsPart (writeText s) := by
  have quote : IsBasic '"' := by decide
  constructor
  · intro n held
    rw [writeText, String.toList_ofList, List.cons_append, Text.holds_basic quote] at held
    obtain inside | last := Text.holds_append (by simpa using quote) held
    · exact h n (holds_of_escaped inside)
    · rw [Text.holds_basic quote] at last
      cases last.1
  · intro c hc
    obtain rfl : '"' = c := by simpa [writeText] using hc
    exact quote

theorem isPart_list {vs : List Value} (h : ∀ v ∈ vs, IsPart (write v)) : IsPart (write (.list vs)) := by
  have all : writeAll vs = vs.map write := by
    induction vs with
    | nil => rfl
    | cons v r ih => rw [writeAll, ih fun w hw => h w (List.mem_cons_of_mem v hw), List.map_cons]
  rw [write, all]
  have comma : IsPart "," := isPart_of_basic (by decide)
  exact ((isPart_of_basic (by decide)).append (comma.intercalate (List.forall_mem_map.2 h))).append
    (isPart_of_basic (by decide))

theorem isPart_dict {es : List (String × Value)} (h : ∀ e ∈ es, IsStorable e.1 ∧ IsPart (write e.2)) :
    IsPart (write (.dict (es.map fun e => (.text e.1, e.2)))) := by
  have all : writeEntries (es.map fun e => (.text e.1, e.2)) = es.map fun e => writeText e.1 ++ ":" ++ write e.2 := by
    induction es with
    | nil => rfl
    | cons e r ih =>
      rw [List.map_cons, writeEntries, ih fun f hf => h f (List.mem_cons_of_mem e hf), List.map_cons,
        Value.display_text]
  rw [write, all]
  have comma : IsPart "," := isPart_of_basic (by decide)
  have parts : ∀ t ∈ es.map fun e => writeText e.1 ++ ":" ++ write e.2, IsPart t := by
    refine List.forall_mem_map.2 fun e he => ?_
    obtain ⟨key, value⟩ := h e he
    exact ((isPart_writeText key).append (isPart_of_basic (by decide))).append value
  exact ((isPart_of_basic (by decide)).append (comma.intercalate parts)).append (isPart_of_basic (by decide))

end Json

end PhpScaffold
