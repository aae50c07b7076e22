import PhpScaffold.Proofs.Blueprint.Harvest
import PhpScaffold.Proofs.Name.Full
import Mathlib

namespace PhpScaffold

namespace Name

variable {c : Char} {t : List Char} {n m s : String} {segments : List String}

/-- A segment as the language has it: letters, digits, underscores and all that is not ASCII, no digit first. -/
structure IsLabel (t : List Char) : Prop where
  filled : t ≠ []
  first : ∀ c ∈ t.head?, isHead c ∨ 0x80 ≤ c.toNat
  within : ∀ c ∈ t, isTail c ∨ 0x80 ≤ c.toNat

/-- A class name as it may be written, relative or absolute, of one segment or more. -/
structure Labels (segments : List String) (n : String) : Prop where
  filled : segments ≠ []
  label : ∀ s ∈ segments, IsLabel s.toList
  written : n = ofSegments segments ∨ n = "\\" ++ ofSegments segments

def IsAscii (n : String) : Prop := ∀ c ∈ n.toList, c.toNat < 0x80

instance (n : String) : Decidable (IsAscii n) := inferInstanceAs (Decidable (∀ _ ∈ _, _))

instance (t : List Char) : Decidable (IsLabel t) :=
  decidable_of_iff (t ≠ [] ∧ (∀ c ∈ t.head?.toList, isHead c ∨ 0x80 ≤ c.toNat) ∧ ∀ c ∈ t, isTail c ∨ 0x80 ≤ c.toNat)
    ⟨fun ⟨filled, first, within⟩ => ⟨filled, fun c hc => first c (Option.mem_toList.2 hc), within⟩,
      fun h => ⟨h.filled, fun c hc => h.first c (Option.mem_toList.1 hc), h.within⟩⟩

theorem isGap_of_not_ascii (h : 0x80 ≤ c.toNat) : IsGap c := by
  constructor
  · rw [← Bool.not_eq_true]
    intro tail
    have := toNat_of_isTail tail
    omega
  · rintro rfl
    exact absurd h (by decide)

theorem IsLabel.isSegment (h : IsLabel s.toList) : IsSegment s := by
  refine ⟨fun empty => h.filled (by simp [empty]), fun inside => ?_⟩
  obtain tail | wide := h.within _ inside
  · exact ne_separator_of_isTail tail rfl
  · exact absurd wide (by decide)

theorem IsLabel.isIdentifier (h : IsLabel t) (ascii : ∀ c ∈ t, c.toNat < 0x80) : IsIdentifier t := by
  obtain ⟨c, r, rfl⟩ := List.exists_cons_of_ne_nil h.filled
  obtain ⟨narrow, rest⟩ := List.forall_mem_cons.1 ascii
  refine ⟨c, r, rfl, (h.first c rfl).resolve_right (Nat.not_le.2 narrow), fun d hd => ?_⟩
  exact (h.within d (List.mem_cons_of_mem c hd)).resolve_right (Nat.not_le.2 (rest d hd))

theorem IsWhole.isAscii (h : IsWhole n.toList) : IsAscii n := by
  intro c hc
  by_contra wide
  exact h.not_mem (isGap_of_not_ascii (Nat.not_lt.1 wide)) hc

theorem isQualified_iff : isQualified n = true ↔ separator ∈ n.toList.tail := by
  cases written : n.toList with
  | nil => simp [isQualified, written]
  | cons c r =>
    by_cases back : c = separator
    · simp [isQualified, written, back]
    · simp [isQualified, written, back, Ne.symm back]

theorem tail_subset_of_mem_tokens {u : List Char} (h : .name u ∈ tokens t) : u.tail ⊆ t.tail := by
  obtain ⟨before, after, cut⟩ := List.append_of_mem h
  have whole : before.flatMap Token.text ++ (u ++ after.flatMap Token.text) = t := by
    rw [← flatMap_text_tokens t, cut, List.flatMap_append, List.flatMap_cons]
    rfl
  intro c hc
  rw [← whole]
  cases front : before.flatMap Token.text with
  | nil =>
    have filled : u ≠ [] := by
      rintro rfl
      exact absurd (isWhole_of_mem_tokens h) (by decide)
    rw [List.nil_append, List.tail_append_of_ne_nil filled]
    exact List.mem_append_left _ hc
  | cons d r =>
    rw [List.cons_append, List.tail_cons]
    exact List.mem_append_right _ (List.mem_append_left _ (List.mem_of_mem_tail hc))

theorem isQualified_of_mem_names (h : m ∈ names n) (qualified : isQualified m = true) : isQualified n = true := by
  obtain ⟨token, mem, named⟩ := List.mem_filterMap.1 h
  cases token with
  | other c => cases named
  | name u =>
    cases named
    rw [isQualified_iff, String.toList_ofList] at qualified
    exact isQualified_iff.2 (tail_subset_of_mem_tokens mem qualified)

theorem qualifiedNames_eq_nil (h : isQualified n = false) : qualifiedNames n = [] := by
  rw [qualifiedNames, List.map_eq_nil_iff, List.filter_eq_nil_iff]
  intro m hm qualified
  rw [isQualified_of_mem_names hm qualified] at h
  cases h

theorem qualifiedNames_of_isWhole (h : IsWhole n.toList) (qualified : isQualified n = true) :
    qualifiedNames n = [relative n] := by
  rw [qualifiedNames, names_of_isWhole h, List.filter_cons_of_pos qualified, List.filter_nil, List.map_singleton]

theorem separator_mem_of_mem_qualifiedNames (h : m ∈ qualifiedNames n) : separator ∈ m.toList := by
  obtain ⟨k, found, rfl⟩ := List.mem_map.1 h
  obtain ⟨named, qualified⟩ := List.mem_filter.1 found
  obtain ⟨c, r, head, -, written⟩ := (isWhole_of_mem_names named).exists_tail
  rw [relative_of_head head written]
  rw [isQualified_iff] at qualified
  obtain relative | absolute := written
  · rw [relative] at qualified
    exact List.mem_cons_of_mem c qualified
  · rwa [absolute] at qualified

theorem isAscii_of_mem_qualifiedNames (h : m ∈ qualifiedNames n) : IsAscii m :=
  (isWhole_of_mem_qualifiedNames h).isAscii

namespace Labels

variable (h : Labels segments n)

include h

theorem exists_cons : ∃ c r, (ofSegments segments).toList = c :: r ∧ c ≠ separator := by
  obtain ⟨s, r, rfl⟩ := List.exists_cons_of_ne_nil h.filled
  obtain ⟨c, u, written, other⟩ := (h.label s List.mem_cons_self).isSegment.exists_cons
  exact ⟨c, _, by rw [toList_ofSegments, written, List.cons_append], other⟩

theorem spells (several : 2 ≤ segments.length) : Spells segments n :=
  ⟨several, fun s hs => (h.label s hs).isSegment, h.written⟩

theorem isQualified_iff_several : isQualified n = true ↔ 2 ≤ segments.length := by
  refine ⟨fun qualified => ?_, fun several => (h.spells several).isQualified_eq⟩
  by_contra one
  obtain ⟨s, r, rfl⟩ := List.exists_cons_of_ne_nil h.filled
  obtain rfl : r = [] := by
    rw [List.length_cons] at one
    exact List.length_eq_zero_iff.1 (by omega)
  have segment := (h.label s List.mem_cons_self).isSegment
  have single : ofSegments [s] = s := String.intercalate_singleton
  obtain relative | absolute := h.written
  · rw [relative, single, segment.isQualified_eq_false] at qualified
    cases qualified
  · rw [absolute, single, segment.isQualified_absolute_eq_false] at qualified
    cases qualified

theorem isQualified_iff_mem : isQualified n = true ↔ separator ∈ (ofSegments segments).toList := by
  obtain ⟨c, r, first, other⟩ := h.exists_cons
  rw [isQualified_iff]
  obtain relative | absolute := h.written
  · rw [relative, first, List.tail_cons, List.mem_cons, or_iff_right other.symm]
  · rw [absolute, String.toList_append]
    rfl

theorem isAscii_iff : IsAscii n ↔ IsAscii (ofSegments segments) := by
  obtain relative | absolute := h.written
  · rw [relative]
  · have front : n.toList = '\\' :: (ofSegments segments).toList := by
      rw [absolute]
      simp
    rw [IsAscii, IsAscii, front, List.forall_mem_cons]
    exact and_iff_right (by decide)

theorem isWhole (ascii : IsAscii n) : IsWhole n.toList := by
  have within : ∀ s ∈ segments, IsIdentifier s.toList := by
    intro s hs
    refine (h.label s hs).isIdentifier fun c hc => h.isAscii_iff.1 ascii c ?_
    obtain ⟨before, after, rfl⟩ := List.append_of_mem hs
    cases before with
    | nil =>
      rw [List.nil_append, toList_ofSegments]
      exact List.mem_append_left _ hc
    | cons u r =>
      rw [List.cons_append, toList_ofSegments, List.mem_append, List.mem_flatMap]
      exact .inr ⟨s, by simp, List.mem_cons_of_mem _ hc⟩
  have bare := isWhole_ofSegments h.filled within
  obtain relative | absolute := h.written
  · rwa [relative]
  · obtain ⟨c, r, head, tail, written⟩ := bare.exists_tail
    obtain same | doubled := written
    · rw [absolute, String.toList_append, same]
      exact (isWhole_of_tail head tail).2
    · obtain ⟨d, u, first, other⟩ := h.exists_cons
      rw [first] at doubled
      exact absurd (List.cons.inj doubled).1 other

theorem qualifiedNames_eq (qualified : isQualified n = true) (ascii : IsAscii n) :
    qualifiedNames n = [ofSegments segments] := by
  rw [qualifiedNames_of_isWhole (h.isWhole ascii) qualified,
    (h.spells (h.isQualified_iff_several.1 qualified)).relative_eq]

end Labels

end Name

namespace Element

variable {e : Element} {n m : String} {segments : List String}

theorem mem_dependencies_iff : m ∈ e.dependencies ↔ ∃ n, .text n ∈ e.references ∧ m ∈ Name.qualifiedNames n := by
  rw [dependencies, mem_distinct, List.mem_flatMap]
  refine exists_congr fun n => and_congr_left fun _ => ?_
  constructor
  · intro h
    obtain ⟨v, hv, text⟩ := List.mem_filterMap.1 h
    cases v <;> cases text
    exact hv
  · exact fun h => List.mem_filterMap.2 ⟨_, h, rfl⟩

/-- A class name is found in itself, and is a dependency of an element that refers to it, just when it is qualified,
provided that a qualified name is in ASCII. -/
theorem harvested_iff (h : Name.Labels segments n) :
    (Name.isQualified n = true ↔ Name.separator ∈ (Name.ofSegments segments).toList) ∧
    (Name.qualifiedNames n = (if Name.isQualified n then [Name.ofSegments segments] else []) ↔
      (Name.isQualified n = true → Name.IsAscii n)) ∧
    ∀ e : Element, .text n ∈ e.references →
      ((Name.ofSegments segments ∈ e.dependencies ↔ Name.isQualified n = true) ↔
        (Name.isQualified n = true → Name.IsAscii n)) := by
  have ascii {s : String} (found : Name.ofSegments segments ∈ Name.qualifiedNames s) : Name.IsAscii n :=
    h.isAscii_iff.2 (Name.isAscii_of_mem_qualifiedNames found)
  refine ⟨h.isQualified_iff_mem, ?_, fun e referred => ?_⟩
  · cases qualified : Name.isQualified n with
    | false => simp [Name.qualifiedNames_eq_nil qualified]
    | true =>
      simp only [if_true, forall_const]
      exact ⟨fun found => ascii (s := n) (by simp [found]), h.qualifiedNames_eq qualified⟩
  · cases qualified : Name.isQualified n with
    | false =>
      have unknown : Name.ofSegments segments ∉ e.dependencies := by
        intro known
        obtain ⟨s, -, found⟩ := mem_dependencies_iff.1 known
        rw [h.isQualified_iff_mem.2 (Name.separator_mem_of_mem_qualifiedNames found)] at qualified
        cases qualified
      simp [unknown]
    | true =>
      simp only [iff_true, forall_const]
      constructor
      · intro known
        obtain ⟨s, -, found⟩ := mem_dependencies_iff.1 known
        exact ascii found
      · intro narrow
        refine mem_dependencies_iff.2 ⟨n, referred, ?_⟩
        simp [h.qualifiedNames_eq qualified narrow]

def extending (n : String) : Element := { name := "Repo", form := .interface [.text n] }

theorem mem_references_extending (n : String) : .text n ∈ (extending n).references := List.mem_cons_self

theorem harvested_absolute :
    Name.Labels ["Vendor", "Base_2"] "\\Vendor\\Base_2" ∧
      Name.qualifiedNames "\\Vendor\\Base_2" = ["Vendor\\Base_2"] ∧
      "Vendor\\Base_2" ∈ (extending "\\Vendor\\Base_2").dependencies := by
  have labels : Name.Labels ["Vendor", "Base_2"] "\\Vendor\\Base_2" := ⟨by decide, by decide, .inr (by decide)⟩
  obtain ⟨qualified, named, harvested⟩ := harvested_iff labels
  have qualified := qualified.2 (by decide)
  have ascii : Name.isQualified "\\Vendor\\Base_2" = true → Name.IsAscii "\\Vendor\\Base_2" := fun _ => by decide
  refine ⟨labels, ?_, ?_⟩
  · have found := named.2 ascii
    rwa [if_pos qualified] at found
  · exact ((harvested _ (mem_references_extending _)).2 ascii).2 qualified

theorem harvested_accented :
    Name.Labels ["É", "A"] "É\\A" ∧ Name.isQualified "É\\A" = true ∧ Name.qualifiedNames "É\\A" = [] ∧
      (extending "É\\A").dependencies = [] := by
  have none : Name.qualifiedNames "É\\A" = [] := by cbv
  refine ⟨⟨by decide, by decide, .inl (by decide)⟩, by decide, none, ?_⟩
  rw [dependencies, show (extending "É\\A").references.filterMap Value.text? = ["É\\A"] from rfl,
    List.flatMap_singleton, none]
  rfl

end Element

end PhpScaffold
