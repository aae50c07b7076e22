import PhpScaffold.Proofs.Text.Feed

namespace PhpScaffold

open Decimal (OneLine)

namespace Text

structure Carried (v w : String) : Prop where
  line : OneLine v.toList → w = v
  ending : ∀ t, OneLine t → t <:+ v.toList → t <:+ w.toList

structure Shifted (v w : String) : Prop where
  line : OneLine v.toList → w = v
  broken : ¬OneLine v.toList → OneLine w.toList ∨ ∃ t, OneLine t ∧ t <:+ w.toList ∧ ¬t <:+ v.toList

variable {u v w : String}

theorem Carried.refl (v : String) : Carried v v := ⟨fun _ => rfl, fun _ _ => id⟩

theorem Carried.trans (h : Carried u v) (k : Carried v w) : Carried u w where
  line one := by
    obtain rfl := h.line one
    exact k.line one
  ending t one part := k.ending t one (h.ending t one part)

theorem Carried.trans_shifted (h : Carried u v) (k : Shifted v w) : Shifted u w where
  line one := by
    obtain rfl := h.line one
    exact k.line one
  broken several := by
    by_cases one : OneLine v.toList
    · exact .inl (k.line one ▸ one)
    · obtain joined | ⟨t, line, part, other⟩ := k.broken one
      · exact .inl joined
      · exact .inr ⟨t, line, part, fun before => other (h.ending t line before)⟩

theorem Shifted.trans_carried (h : Shifted u v) (k : Carried v w) : Shifted u w where
  line one := by
    obtain rfl := h.line one
    exact k.line one
  broken several := by
    obtain one | ⟨t, line, part, other⟩ := h.broken several
    · exact .inl (k.line one ▸ one)
    · exact .inr ⟨t, line, k.ending t line part, other⟩

theorem Shifted.eq_iff (h : Shifted v w) : w = v ↔ OneLine v.toList := by
  constructor
  · rintro rfl
    by_contra several
    obtain one | ⟨t, -, part, other⟩ := h.broken several
    · exact several one
    · exact other part
  · exact h.line

theorem not_mem_of_oneLine {c : Char} {t : List Char} (h : OneLine t) (ends : isLineBreak c) : c ∉ t := by
  intro inside
  rw [h c inside] at ends
  cases ends

theorem suffix_of_oneLine {c : Char} {s t u : List Char} (h : OneLine t) (ends : isLineBreak c)
    (part : t <:+ s ++ c :: u) : t <:+ u := by
  have clear := not_mem_of_oneLine h ends
  obtain within | beyond := List.suffix_or_suffix_of_suffix part (List.suffix_append s (c :: u))
  · obtain rfl | inside := List.suffix_cons_iff.1 within
    · exact absurd List.mem_cons_self clear
    · exact inside
  · exact absurd (beyond.subset List.mem_cons_self) clear

theorem map_of_oneLine {t : List Char} (h : OneLine t) : t.map (fun c => if c = '\n' then ' ' else c) = t := by
  conv_rhs => rw [← List.map_id t]
  apply List.map_congr_left
  intro c hc
  apply if_neg
  rintro rfl
  exact not_mem_of_oneLine h (by decide) hc

theorem carried_replace (v : String) : Carried v (replace '\n' ' ' v) where
  line one := by rw [← String.toList_inj, replace, String.toList_map, map_of_oneLine one]
  ending := by
    rintro t one ⟨s, whole⟩
    rw [replace, String.toList_map, ← whole, List.map_append, map_of_oneLine one]
    exact List.suffix_append _ _

theorem carried_feeds {p : Char → Bool} (only : ∀ c, p c → isLineBreak c) (v : String) :
    Carried v (.ofList (feeds p v.toList)) where
  line one := by rw [feeds_of_oneLine only one, String.ofList_toList]
  ending := by
    rintro t one ⟨s, whole⟩
    rw [String.toList_ofList, ← whole, feeds_append_of_oneLine only one]
    exact List.suffix_append _ _

def Led (lead v w : String) : Prop :=
  '\n' ∉ v.toList ∧ w = v ∨ ∃ front front' last, v = front ++ ("\n" ++ last) ∧ '\n' ∉ last.toList ∧
    w = front' ++ ("\n" ++ (lead ++ last))

theorem Led.carried {lead : String} (h : Led lead v w) : Carried v w := by
  obtain ⟨-, rfl⟩ | ⟨front, front', last, rfl, -, rfl⟩ := h
  · exact .refl w
  · refine ⟨fun one => absurd (not_mem_of_oneLine one (c := '\n') (by decide)) (by simp), fun t one part => ?_⟩
    have inside : t <:+ last.toList :=
      suffix_of_oneLine (c := '\n') (s := front.toList) one (by decide) (by simpa using part)
    refine inside.trans ⟨front'.toList ++ '\n' :: lead.toList, ?_⟩
    simp

theorem Led.shifted {lead : String} (h : Led lead v w) (plain : IsPlain v) (line : OneLine lead.toList)
    (some : lead ≠ "") : Shifted v w := by
  refine ⟨h.carried.line, fun several => ?_⟩
  obtain ⟨none, rfl⟩ | ⟨front, front', last, rfl, clear, rfl⟩ := h
  · refine absurd (fun c hc => ?_) several
    by_contra ends
    exact none (plain c hc (by simpa using ends) ▸ hc)
  · have one : OneLine last.toList := by
      intro c hc
      by_contra ends
      refine clear (plain c ?_ (by simpa using ends) ▸ hc)
      simp [hc]
    have led : OneLine (lead ++ last).toList := by simp [line, one]
    refine .inr ⟨(lead ++ last).toList, led, ⟨front'.toList ++ ['\n'], by simp⟩, fun part => ?_⟩
    have inside : (lead ++ last).toList <:+ last.toList :=
      suffix_of_oneLine (c := '\n') (s := front.toList) led (by decide) (by simpa using part)
    have short := inside.length_le
    rw [String.toList_append, List.length_append] at short
    have none : lead.toList.length = 0 := by omega
    exact some (String.toList_eq_nil_iff.1 (List.length_eq_zero_iff.1 none))

theorem splitOn_append {c : Char} {s t l u : List Char} {above below : List (List Char)}
    (hs : s.splitOn c = above ++ [l]) (ht : t.splitOn c = u :: below) :
    (s ++ t).splitOn c = above ++ (l ++ u) :: below := by
  induction s generalizing above l with
  | nil =>
    rw [List.splitOn_nil, ← List.nil_append [[]]] at hs
    obtain ⟨rfl, rfl⟩ := List.append_singleton_inj.1 hs
    exact ht
  | cons d r ih =>
    obtain none | ⟨before, last, pieces⟩ := List.eq_nil_or_concat (r.splitOn c)
    · exact absurd none (List.splitOn_ne_nil c r)
    rw [List.concat_eq_append] at pieces
    rw [List.splitOn_cons_eq_if_modifyHead, pieces] at hs
    rw [List.cons_append, List.splitOn_cons_eq_if_modifyHead, ih pieces]
    by_cases same : d = c
    · rw [if_pos (by simp [same])] at hs ⊢
      rw [← List.cons_append] at hs
      obtain ⟨rfl, rfl⟩ := List.append_singleton_inj.1 hs
      rfl
    · rw [if_neg (by simp [same])] at hs ⊢
      cases before with
      | nil =>
        rw [List.nil_append, List.modifyHead_cons, ← List.nil_append [d :: last]] at hs
        obtain ⟨rfl, rfl⟩ := List.append_singleton_inj.1 hs
        rfl
      | cons x before =>
        rw [List.cons_append, List.modifyHead_cons, ← List.cons_append] at hs
        obtain ⟨rfl, rfl⟩ := List.append_singleton_inj.1 hs
        rfl

theorem cut_append {c : Char} {s t l u : String} {above below : List String}
    (hs : cut c s = above ++ [l]) (ht : cut c t = u :: below) : cut c (s ++ t) = above ++ (l ++ u) :: below := by
  have lists {x : String} {ls : List String} (h : cut c x = ls) : x.toList.splitOn c = ls.map String.toList := by
    rw [← h, cut, List.map_map]
    simp
  have joined := splitOn_append (by simpa using lists hs) (by simpa using lists ht)
  rw [cut, String.toList_append, joined]
  simp [Function.comp_def]

theorem intercalate_append_cons (sep m : String) (ls ms : List String) :
    sep.intercalate (ls ++ m :: ms) =
      String.join (ls.map (· ++ sep)) ++ (m ++ String.join (ms.map (sep ++ ·))) := by
  have after (m : String) : sep.intercalate (m :: ms) = m ++ String.join (ms.map (sep ++ ·)) := by
    induction ms generalizing m with
    | nil => simp
    | cons n r ih =>
      rw [String.intercalate_cons_cons, ih, List.map_cons, String.join_cons, String.append_assoc, String.append_assoc]
  induction ls with
  | nil => simp [after]
  | cons l r ih =>
    have some : r ++ m :: ms ≠ [] := by simp
    rw [List.cons_append, String.intercalate_cons_of_ne_nil some, ih, List.map_cons, String.join_cons,
      String.append_assoc, String.append_assoc, String.append_assoc]

end Text

end PhpScaffold
