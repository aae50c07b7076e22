import PhpScaffold.Text.Blank
import PhpScaffold.Text.Surrogate
import Mathlib.Data.List.DropRight
import Mathlib.Data.List.TakeWhile

namespace PhpScaffold.Text

variable {c : Char} {t : List Char}

/-- What is said of the characters of a text is decided for these, not for all characters that there are. -/
instance (priority := 2000) decidableForallMem {P : Char → Prop} [DecidablePred P] (t : List Char) :
    Decidable (∀ c ∈ t, P c) :=
  List.decidableBAll P t

theorem all_ne (h : c ∉ t) : ∀ d ∈ t, decide (d ≠ c) = true := by
  intro d hd
  exact decide_eq_true fun e => h (e ▸ hd)

theorem takeWhile_ne (h : c ∉ t) : t.takeWhile (· ≠ c) = t :=
  List.takeWhile_eq_self_iff.2 (all_ne h)

theorem dropWhile_ne (h : c ∉ t) : t.dropWhile (· ≠ c) = [] :=
  List.dropWhile_eq_nil_iff.2 (all_ne h)

theorem takeWhile_ne_append (h : c ∉ t) (r : List Char) : (t ++ c :: r).takeWhile (· ≠ c) = t := by
  rw [List.takeWhile_append_of_pos (all_ne h), List.takeWhile_cons_of_neg (by simp), List.append_nil]

theorem dropWhile_ne_append (h : c ∉ t) (r : List Char) : (t ++ c :: r).dropWhile (· ≠ c) = c :: r := by
  rw [List.dropWhile_append_of_pos (all_ne h), List.dropWhile_cons_of_neg (by simp)]

theorem dropEndWhile_eq (p : Char → Bool) (t : List Char) : dropEndWhile p t = t.rdropWhile p := rfl

theorem dropWhile_trimBoth (p : Char → Bool) (t : List Char) : (trimBoth p t).dropWhile p = trimBoth p t := by
  rw [List.dropWhile_eq_self_iff]
  intro filled
  have front : trimBoth p t <+: t.dropWhile p := List.rdropWhile_prefix p _
  have kept := List.dropWhile_eq_self_iff.1 (List.dropWhile_idempotent (p := p) (l := t))
  rw [front.getElem filled]
  exact kept (Nat.lt_of_lt_of_le filled front.length_le)

@[simp] theorem trimBoth_trimBoth (p : Char → Bool) (t : List Char) : trimBoth p (trimBoth p t) = trimBoth p t := by
  rw [trimBoth, dropWhile_trimBoth]
  exact List.rdropWhile_idempotent p _

theorem exists_trimBoth (p : Char → Bool) (t : List Char) :
    ∃ front back, t = front ++ trimBoth p t ++ back ∧ (∀ c ∈ front, p c) ∧ ∀ c ∈ back, p c := by
  have split (u : List Char) : u = u.rdropWhile p ++ u.rtakeWhile p := by
    simp [List.rdropWhile, List.rtakeWhile, ← List.reverse_append]
  refine ⟨t.takeWhile p, (t.dropWhile p).rtakeWhile p, ?_, ?_, ?_⟩
  · rw [trimBoth, dropEndWhile_eq, List.append_assoc, ← split, List.takeWhile_append_dropWhile]
  · exact fun c hc => List.mem_takeWhile_imp hc
  · exact fun c hc => List.mem_rtakeWhile_imp hc

theorem mem_trim {p : Char → Bool} {s : String} (h : c ∈ s.toList) (kept : p c = false) : c ∈ (trim p s).toList := by
  obtain ⟨front, back, whole, before, behind⟩ := exists_trimBoth p s.toList
  have off {u : List Char} (all : ∀ d ∈ u, p d) : c ∉ u := fun inside => by simp [all c inside] at kept
  rw [whole, List.mem_append, List.mem_append] at h
  rw [trim, String.toList_ofList]
  exact (h.resolve_right (off behind)).resolve_left (off before)

theorem exists_trimBoth_append {p : Char → Bool} {t r : List Char} (kept : ∀ c ∈ t, p c = false)
    (first : ∀ c ∈ r.head?, p c = false) : ∃ r', trimBoth p (t ++ r) = t ++ r' ∧ r'.head? = r.head? := by
  have front : (t ++ r).dropWhile p = t ++ r := by
    cases t with
    | nil => cases r <;> simp_all
    | cons c t => simp_all
  rw [trimBoth, front, dropEndWhile_eq]
  clear front
  induction r using List.reverseRecOn with
  | nil =>
    refine ⟨[], ?_, rfl⟩
    rw [List.append_nil, List.rdropWhile_eq_self_iff]
    exact fun some => by simp [kept _ (List.getLast_mem some)]
  | append_singleton r d ih =>
    cases trimmed : p d with
    | false => exact ⟨r ++ [d], by rw [← List.append_assoc, List.rdropWhile_concat_neg _ _ _ (by simp [trimmed])], rfl⟩
    | true =>
      cases r with
      | nil => simp [trimmed] at first
      | cons c r =>
        obtain ⟨r', whole, same⟩ := ih first
        exact ⟨r', by rw [← List.append_assoc, List.rdropWhile_concat_pos _ _ _ trimmed, whole], by simpa using same⟩

theorem trim_of_forall {p : Char → Bool} {s : String} (kept : ∀ c ∈ s.toList, p c = false) : trim p s = s := by
  obtain ⟨r, whole, none⟩ := exists_trimBoth_append (r := []) kept (by simp)
  rw [List.append_nil] at whole
  rw [trim, whole, List.head?_eq_none_iff.1 none, List.append_nil, String.ofList_toList]

theorem intercalate_induct {P : String → Prop} (empty : P "") (append : ∀ {s t}, P s → P t → P (s ++ t))
    {between : String} (mid : P between) {ts : List String} (h : ∀ t ∈ ts, P t) : P (between.intercalate ts) := by
  induction ts with
  | nil => rwa [String.intercalate_nil]
  | cons t r ih =>
    obtain ⟨first, rest⟩ := List.forall_mem_cons.1 h
    cases r with
    | nil => rwa [String.intercalate_singleton]
    | cons u r =>
      rw [String.intercalate_cons_cons]
      exact append (append first mid) (ih rest)

theorem mem_intercalate {between : String} {ts : List String} (h : c ∈ (between.intercalate ts).toList) :
    c ∈ between.toList ∨ ∃ t ∈ ts, c ∈ t.toList := by
  revert h
  apply intercalate_induct (P := fun s => c ∈ s.toList → c ∈ between.toList ∨ ∃ t ∈ ts, c ∈ t.toList)
  · simp
  · intro s t first second h
    rw [String.toList_append, List.mem_append] at h
    exact h.elim first second
  · exact .inl
  · exact fun t ht inside => .inr ⟨t, ht, inside⟩

theorem intercalate_cut_singleton (c : Char) (s : String) : (String.singleton c).intercalate (cut c s) = s := by
  rw [← String.toList_inj, String.toList_intercalate, String.toList_singleton, cut]
  simp [Function.comp_def]

theorem cut_intercalate {ls : List String} (some : ls ≠ []) (apart : ∀ l ∈ ls, c ∉ l.toList) :
    cut c ((String.singleton c).intercalate ls) = ls := by
  rw [cut, String.toList_intercalate, String.toList_singleton,
    List.splitOn_intercalate c (List.forall_mem_map.2 apart) (by simpa using some)]
  simp

theorem isHalf_code_of_isMark (h : isMark c) : isHalf (code c) = false := by
  simp only [isMark, decide_eq_true_eq] at h
  simp [code, h, isTaken, isHalf, isHigh, isLow, markCode, distance]

theorem mem_codes_append {n : Nat} (h : n ∈ codes t) (half : isHalf n) (u : List Char) : n ∈ codes (t ++ u) := by
  fun_induction codes t with
  | case1 => simp at h
  | case2 c =>
    obtain rfl := List.mem_singleton.1 h
    by_cases mark : isMark c
    · rw [isHalf_code_of_isMark mark] at half
      simp at half
    · rw [List.singleton_append, codes_cons (by simpa using mark)]
      exact List.mem_cons_self
  | case3 c d r mark ih =>
    simp only [List.cons_append, codes, mark, if_true]
    obtain rfl | later := List.mem_cons.1 h
    · exact List.mem_cons_self
    · exact List.mem_cons_of_mem _ (ih later)
  | case4 c d r mark ih =>
    rw [List.cons_append, codes_cons (by simpa using mark)]
    obtain rfl | later := List.mem_cons.1 h
    · exact List.mem_cons_self
    · exact List.mem_cons_of_mem _ (ih later)

theorem halves?_eq_none {allowed : Nat → Bool} {s : String} :
    halves? allowed s = none ↔ ∀ n ∈ codes s.toList, isHalf n → allowed n := by
  have none_iff : halves? allowed s = none ↔
      (codes s.toList).dropWhile (fun n => !isHalf n || allowed n) = [] := by
    rw [halves?]
    cases (codes s.toList).dropWhile fun n => !isHalf n || allowed n <;> simp
  rw [none_iff, List.dropWhile_eq_nil_iff]
  apply forall₂_congr
  intro n _
  cases isHalf n <;> simp

theorem ofPlain_eq {s : String} (h : ∀ c ∈ s.toList, isTaken c.toNat = false) : ofPlain s = s := by
  have none : (s.any fun c => isTaken c.toNat) = false := by
    change (s.contains fun c => isTaken c.toNat) = false
    rw [String.contains_bool_eq, List.any_eq_false]
    intro c hc
    simp [h c hc]
  rw [ofPlain, none]
  rfl

theorem ofBytes?_bytes {s : String} (h : ∀ c ∈ s.toList, isTaken c.toNat = false) : ofBytes? (bytes s) = some s := by
  have stored : bytes s = s.toUTF8 := by
    have same : Char.ofNat ∘ Char.toNat = id := funext Char.ofNat_toNat
    rw [bytes, codes_eq h, List.map_map, same, List.map_id, String.ofList_toList]
  have read : String.fromUTF8? s.toUTF8 = some s := by
    rw [String.fromUTF8?]
    exact dif_pos s.isValidUTF8
  rw [stored, ofBytes?, read, Option.map_some, ofPlain_eq h]

end PhpScaffold.Text
