import PhpScaffold.Proofs.Mapping.Descent

namespace PhpScaffold

namespace Name

variable {names xs ys : List String} {s : String}

def closed (names : List String) : List Char := names.flatMap fun s => s.toList ++ [separator]

theorem closed_cons (s : String) (r : List String) : closed (s :: r) = s.toList ++ separator :: closed r := by
  simp [closed]

theorem closed_append (xs ys : List String) : closed (xs ++ ys) = closed xs ++ closed ys := List.flatMap_append

theorem closed_eq (some : names ≠ []) : closed names = (ofSegments names).toList ++ [separator] := by
  induction names with
  | nil => exact absurd rfl some
  | cons s r ih =>
    cases r with
    | nil => simp [closed, ofSegments]
    | cons t r =>
      rw [closed_cons, ih (by simp)]
      simp [ofSegments, separator]

theorem prefix_of_closed (hx : ∀ s ∈ xs, separator ∉ s.toList) (hy : ∀ s ∈ ys, separator ∉ s.toList)
    (h : closed xs <+: closed ys) : xs <+: ys := by
  -- the first backslash ends the first segment on both sides
  induction xs generalizing ys with
  | nil => exact List.nil_prefix
  | cons x r ih =>
    obtain ⟨first, rest⟩ := List.forall_mem_cons.1 hx
    obtain ⟨t, whole⟩ := h
    rw [closed_cons, List.append_assoc, List.cons_append] at whole
    cases ys with
    | nil => simp [closed] at whole
    | cons y u =>
      obtain ⟨first', rest'⟩ := List.forall_mem_cons.1 hy
      rw [closed_cons] at whole
      have same := congrArg (List.takeWhile (· ≠ separator)) whole
      rw [Text.takeWhile_ne_append first, Text.takeWhile_ne_append first', String.toList_inj] at same
      subst same
      have behind := (List.cons.inj (List.append_cancel_left whole)).2
      exact List.cons_prefix_cons.2 ⟨rfl, ih rest rest' ⟨t, behind⟩⟩

theorem bare_around (m n : Nat) {t : List Char} (first : t.head? ≠ some separator) (last : t.getLast? ≠ some separator) :
    bare (.ofList (List.replicate m separator ++ t ++ List.replicate n separator)) = .ofList t := by
  have front (r : List Char) : (List.replicate m separator ++ r).dropWhile (· = separator) =
      r.dropWhile (· = separator) := List.dropWhile_append_of_pos (by simp)
  have kept : (t ++ List.replicate n separator).rdropWhile (· = separator) = t := by
    rw [List.rdropWhile, List.reverse_append, List.reverse_replicate, List.dropWhile_append_of_pos (by simp)]
    cases ends : t.reverse with
    | nil => simpa using ends.symm
    | cons c r =>
      have other : c ≠ separator := by
        rintro rfl
        exact last (by rw [← List.head?_reverse, ends, List.head?_cons])
      rw [List.dropWhile_cons_of_neg (by simpa using other), ← ends, List.reverse_reverse]
  rw [bare, Text.trim, String.toList_ofList, List.append_assoc, Text.trimBoth, front, Text.dropEndWhile_eq]
  cases t with
  | nil => simp
  | cons c r =>
    have other : c ≠ separator := by
      rintro rfl
      exact first rfl
    rw [List.cons_append, List.dropWhile_cons_of_neg (by simpa using other), ← List.cons_append, kept]

theorem segments_ne_nil (name : String) : segments name ≠ [] := by simp [segments, Text.cut]

theorem segments_of_not_mem (alone : separator ∉ s.toList) : segments s = [s] := by
  rw [segments, Text.cut, List.splitOn_eq_singleton alone, List.map_singleton, String.ofList_toList]

theorem ofSegments_segments (name : String) : ofSegments (segments name) = name := by
  rw [← String.toList_inj, ofSegments, segments, Text.cut, String.toList_intercalate]
  simp [Function.comp_def, separator]

theorem head?_ofSegments (h : ∀ s ∈ names, IsSegment s) : (ofSegments names).toList.head? ≠ some separator := by
  cases names with
  | nil => simp [ofSegments]
  | cons s r =>
    obtain ⟨c, t, written, other⟩ := (h s List.mem_cons_self).exists_cons
    cases r <;> simp [ofSegments, written, other]

theorem getLast?_ofSegments (h : ∀ s ∈ names, IsSegment s) : (ofSegments names).toList.getLast? ≠ some separator := by
  obtain rfl | ⟨front, s, rfl⟩ := List.eq_nil_or_concat names
  · simp [ofSegments]
  rw [List.concat_eq_append] at h ⊢
  have segment := h s (by simp)
  have ends : ∃ t, ofSegments (front ++ [s]) = t ++ s := by
    cases front with
    | nil => exact ⟨"", by simp [ofSegments]⟩
    | cons u r => exact ⟨_, String.intercalate_append_of_ne_nil (by simp) (by simp)⟩
  obtain ⟨t, whole⟩ := ends
  rw [whole, String.toList_append, List.getLast?_append_of_ne_nil _ (by simpa using segment.1)]
  exact fun last => segment.2 (List.mem_of_getLast? last)

end Name

namespace Resolver

variable {names : List String} {scope : String} {e f w : String × String} {n : Nat} {es : List (String × String)}
  {best : Option Match} {tier : Tier}

def segments (e : String × String) : List String :=
  if Name.bare e.1 = "" then [] else Name.segments (Name.bare e.1)

def Encloses (names : List String) (e : String × String) : Prop := segments e ≠ [] ∧ segments e <+: names

instance (names : List String) (e : String × String) : Decidable (Encloses names e) :=
  inferInstanceAs (Decidable (_ ∧ _))

/-- The entry that counts for a namespace with these segments. -/
def chosen? (r : Resolver) (names : List String) : Option (String × String) :=
  let normal := r.mappings.normal.entries.filter (Encloses names ·)
  let priority := r.mappings.priority.entries.filter (Encloses names ·)
  let most := ((normal ++ priority).map fun e => (segments e).length).max?
  let longest (e : String × String) : Bool := some (segments e).length = most
  (priority.filter longest).getLast?.or (normal.filter longest).head?

def below (directory : String) (names : List String) : String := directory ++ String.join (names.map ("/" ++ ·))

theorem not_mem_of_mem_segments {s : String} (h : s ∈ segments e) : Name.separator ∉ s.toList := by
  unfold segments at h
  split at h
  · cases h
  · exact (Text.of_mem_cut h).1

theorem segments_eq_nil : segments e = [] ↔ Name.bare e.1 = "" := by
  unfold segments
  split
  · simp [‹_›]
  · simp [‹_›, Name.segments_ne_nil]

theorem lead_eq_iff : lead e = "\\" ↔ segments e = [] := by
  rw [segments_eq_nil, lead, ← String.toList_inj, ← String.toList_inj]
  simp

theorem toList_lead (some : segments e ≠ []) : (lead e).toList = Name.closed (segments e) := by
  have joined : Name.ofSegments (segments e) = Name.bare e.1 := by
    rw [segments, if_neg (mt segments_eq_nil.2 some), Name.ofSegments_segments]
  rw [Name.closed_eq some, joined, lead]
  simp [Name.separator]

theorem toList_target (bare : Name.bare scope = Name.ofSegments names) (some : names ≠ []) :
    (target scope).toList = Name.closed names := by
  rw [target, bare, Name.closed_eq some]
  simp [Name.separator]

theorem covers_iff (named : ∀ s ∈ names, Name.IsSegment s) (bare : Name.bare scope = Name.ofSegments names) :
    Covers scope e ↔ Encloses names e := by
  rw [Covers, Encloses, ne_eq, lead_eq_iff, Text.startsWith, List.isPrefixOf_iff_prefix]
  refine and_congr_right fun some => ?_
  cases names with
  | nil =>
    have empty : Name.bare scope = "" := bare
    have long : (target scope).toList.length < (lead e).toList.length := by
      have filled := List.length_pos_iff.2 (mt String.toList_eq_nil_iff.1 (mt segments_eq_nil.2 some))
      simpa [target, lead, empty] using filled
    exact iff_of_false (fun front => absurd front.length_le (Nat.not_le_of_lt long)) (by simpa using some)
  | cons s r =>
    rw [toList_lead some, toList_target bare (by simp)]
    refine ⟨Name.prefix_of_closed (fun _ => not_mem_of_mem_segments) fun t ht => (named t ht).2, ?_⟩
    rintro ⟨rest, whole⟩
    rw [← whole, Name.closed_append]
    exact List.prefix_append _ _

theorem length_lead_lt (he : Encloses names e) (hf : Encloses names f)
    (fewer : (segments e).length < (segments f).length) : (lead e).length < (lead f).length := by
  obtain ⟨rest, whole⟩ := List.prefix_of_prefix_length_le he.2 hf.2 (Nat.le_of_lt fewer)
  cases rest with
  | nil =>
    rw [← whole, List.append_nil] at fewer
    exact absurd fewer (Nat.lt_irrefl _)
  | cons s r =>
    rw [← String.length_toList, ← String.length_toList, toList_lead he.1, toList_lead hf.1, ← whole,
      Name.closed_append, Name.closed_cons, List.length_append, List.length_append, List.length_cons]
    omega

theorem length_lead_le_iff (he : Encloses names e) (hf : Encloses names f) :
    (lead e).length ≤ (lead f).length ↔ (segments e).length ≤ (segments f).length := by
  refine ⟨fun h => ?_, fun h => ?_⟩
  · by_contra more
    exact absurd (length_lead_lt hf he (Nat.lt_of_not_le more)) (Nat.not_lt_of_le h)
  · obtain fewer | same := Nat.lt_or_eq_of_le h
    · exact Nat.le_of_lt (length_lead_lt he hf fewer)
    · have alike := (List.prefix_of_prefix_length_le he.2 hf.2 h).eq_of_length same
      rw [← String.length_toList, ← String.length_toList, toList_lead he.1, toList_lead hf.1, alike]

theorem scan_eq_of_length_lt {m : Match} (h : ∀ f ∈ es, Covers scope f → (lead f).length < m.lead.length) :
    scan tier (target scope) (some m) es = some m :=
  scan_eq_self fun f hf inside =>
    better_eq_self (Nat.le_of_lt (h f hf inside)) fun _ => Nat.ne_of_lt (h f hf inside)

theorem scan_priority (before : ∀ m ∈ best, m.lead.length ≤ n)
    (most : ∀ f ∈ es, Covers scope f → (lead f).length ≤ n) (found : es.reverse.find? (fits scope n) = some w) :
    scan .priority (target scope) best es = some (toMatch w) := by
  obtain ⟨fit, after, front, whole, others⟩ := List.find?_eq_some_iff_append.1 found
  obtain ⟨covers, long⟩ := fits_iff.1 fit
  obtain rfl : es = front.reverse ++ w :: after.reverse := by
    rw [← List.reverse_reverse es, whole]
    simp
  have shorter : ∀ m ∈ scan .priority (target scope) best front.reverse, m.lead.length ≤ n :=
    forall_scan before fun f hf => most f (List.mem_append_left _ hf)
  have chosen : better .priority (scan .priority (target scope) best front.reverse) (toMatch w) = some (toMatch w) := by
    cases found : scan .priority (target scope) best front.reverse with
    | none => rfl
    | some b =>
      have less := shorter b found
      rw [better, if_pos]
      rw [lead_toMatch, long]
      exact (Nat.lt_or_eq_of_le less).imp_right fun same => ⟨rfl, same.symm⟩
  rw [scan_append, scan_cons, match?_eq_some.2 ⟨covers, rfl⟩, Option.elim_some, chosen]
  apply scan_eq_of_length_lt
  intro f hf
  rw [lead_toMatch, long]
  exact length_lt_of_not_fits (most f (List.mem_append_right _ (List.mem_cons_of_mem w hf)))
    (by simpa using others f (List.mem_reverse.1 hf))

theorem bestMatch_eq_none {r : Resolver}
    (h : ∀ e ∈ r.mappings.normal.entries ++ r.mappings.priority.entries, ¬Covers scope e) :
    r.bestMatch scope = none := by
  by_contra some
  obtain ⟨m, found⟩ := Option.ne_none_iff_exists'.1 some
  obtain ⟨e, he, inside, -⟩ := exists_of_bestMatch found
  exact h e he inside

/-- The entries with the most segments are those with the longest lead. -/
theorem filter_longest (covers : ∀ f, Covers scope f ↔ Encloses names f) (encloses : Encloses names e)
    (es : List (String × String)) :
    (es.filter (Encloses names ·)).filter (fun f => some (segments f).length = some (segments e).length) =
      es.filter (fits scope (lead e).length) := by
  rw [List.filter_filter]
  apply List.filter_congr
  intro f _
  rw [Bool.eq_iff_iff, fits_iff, covers, Bool.and_eq_true, decide_eq_true_eq, decide_eq_true_eq, and_comm,
    Option.some.injEq]
  refine and_congr_right fun inside => ?_
  rw [Nat.le_antisymm_iff, Nat.le_antisymm_iff, length_lead_le_iff inside encloses, length_lead_le_iff encloses inside]

theorem bestMatch_of_longest {r : Resolver}
    (given : e ∈ r.mappings.normal.entries ++ r.mappings.priority.entries) (inside : Covers scope e)
    (most : ∀ f ∈ r.mappings.normal.entries ++ r.mappings.priority.entries, Covers scope f →
      (lead f).length ≤ (lead e).length) :
    r.bestMatch scope = ((r.mappings.priority.entries.reverse.find? (fits scope (lead e).length)).or
      (r.mappings.normal.entries.find? (fits scope (lead e).length))).map toMatch := by
  obtain ⟨normal, priority⟩ := List.forall_mem_append.1 most
  have unpassed : ∀ m ∈ scan .normal (target scope) none r.mappings.normal.entries,
      m.lead.length ≤ (lead e).length := forall_scan (by simp) normal
  cases last : r.mappings.priority.entries.reverse.find? (fits scope (lead e).length) with
  | some w => exact scan_priority unpassed priority last
  | none =>
    have absent := List.find?_eq_none.1 last
    have fit : fits scope (lead e).length e := fits_iff.2 ⟨inside, rfl⟩
    have there : e ∈ r.mappings.normal.entries :=
      (List.mem_append.1 given).resolve_right fun inside => absent e (List.mem_reverse.2 inside) fit
    obtain ⟨w, first⟩ := Option.isSome_iff_exists.1 (List.find?_isSome.2 ⟨e, there, fit⟩)
    have long : (toMatch w).lead.length = (lead e).length := (fits_iff.1 (List.find?_some first)).2
    have chosen := scan_normal normal first
    change scan .priority (target scope) (scan .normal (target scope) none r.mappings.normal.entries) _ = _
    rw [chosen, first, Option.none_or]
    apply scan_eq_of_length_lt
    intro f hf
    rw [long]
    exact length_lt_of_not_fits (priority f hf) (absent f (List.mem_reverse.2 hf))

theorem bestMatch_eq_chosen? {r : Resolver} (named : ∀ s ∈ names, Name.IsSegment s)
    (bare : Name.bare scope = Name.ofSegments names) : r.bestMatch scope = (r.chosen? names).map toMatch := by
  have covers (e : String × String) : Covers scope e ↔ Encloses names e := covers_iff named bare
  unfold chosen?
  dsimp only
  rw [← List.filter_append]
  cases most : (((r.mappings.normal.entries ++ r.mappings.priority.entries).filter (Encloses names ·)).map
      fun e => (segments e).length).max? with
  | none =>
    have empty := List.filter_eq_nil_iff.1 (List.map_eq_nil_iff.1 (List.max?_eq_none_iff.1 most))
    rw [bestMatch_eq_none fun e he inside => empty e he (by simpa using (covers e).1 inside)]
    simp
  | some k =>
    obtain ⟨reached, bound⟩ := List.max?_eq_some_iff.1 most
    obtain ⟨e, he, rfl⟩ := List.mem_map.1 reached
    obtain ⟨given, encloses⟩ := List.mem_filter.1 he
    replace encloses : Encloses names e := by simpa using encloses
    have within : ∀ f ∈ r.mappings.normal.entries ++ r.mappings.priority.entries, Covers scope f →
        (lead f).length ≤ (lead e).length := by
      intro f hf inside
      have inside := (covers f).1 inside
      exact (length_lead_le_iff inside encloses).2
        (bound _ (List.mem_map_of_mem (List.mem_filter.2 ⟨hf, by simpa using inside⟩)))
    rw [filter_longest covers encloses, filter_longest covers encloses, List.getLast?_filter, List.head?_filter]
    exact bestMatch_of_longest given ((covers e).2 encloses) within

theorem remainder_eq (named : ∀ s ∈ names, Name.IsSegment s) (bare : Name.bare scope = Name.ofSegments names)
    (encloses : Encloses names e) :
    remainder (Name.bare scope) (toMatch e) = Name.ofSegments (names.drop (segments e).length) := by
  obtain ⟨some, rest, whole⟩ := encloses
  have filled : names ≠ [] := by
    rintro rfl
    exact some (List.append_eq_nil_iff.1 whole).1
  have left : (target scope).toList.drop (lead e).length = Name.closed rest := by
    rw [toList_target bare filled, ← String.length_toList, toList_lead some, ← whole, Name.closed_append,
      List.drop_left]
  have beyond : names.drop (segments e).length = rest := by rw [← whole, List.drop_left]
  change Name.bare (.ofList ((target scope).toList.drop (lead e).length)) = _
  rw [left, beyond]
  cases rest with
  | nil => rfl
  | cons s r =>
    have inner : ∀ t ∈ s :: r, Name.IsSegment t := fun t ht => named t (whole ▸ List.mem_append_right _ ht)
    have around := Name.bare_around 0 1 (Name.head?_ofSegments inner) (Name.getLast?_ofSegments inner)
    rw [String.ofList_toList, List.replicate_zero, List.nil_append, List.replicate_one] at around
    rw [Name.closed_eq (by simp), around]

theorem slashed_ofSegments (named : ∀ s ∈ names, Name.IsSegment s) :
    slashed (Name.ofSegments names) = "/".intercalate names := by
  induction names with
  | nil => decide +kernel
  | cons s r ih =>
    obtain ⟨first, rest⟩ := List.forall_mem_cons.1 named
    cases r with
    | nil => simpa [Name.ofSegments] using slashed_eq_self first.2
    | cons t r =>
      have later := ih rest
      rw [Name.ofSegments] at later ⊢
      rw [String.intercalate_cons_cons, slashed_append, slashed_append, later, slashed_eq_self first.2,
        slashed_separator, String.intercalate_cons_cons]

theorem below_cons (directory s : String) (r : List String) :
    below directory (s :: r) = directory ++ "/" ++ "/".intercalate (s :: r) := by
  induction r generalizing directory s with
  | nil => simp [below, String.append_assoc]
  | cons t r ih =>
    have later := ih (directory ++ "/" ++ s) t
    rw [String.intercalate_cons_cons]
    simp only [below, List.map_cons, String.join_cons, String.append_assoc] at later ⊢
    exact later

theorem below_ofSegments (directory : String) (named : ∀ s ∈ names, Name.IsSegment s) :
    (if (Name.ofSegments names).isEmpty then directory else directory ++ "/" ++ slashed (Name.ofSegments names)) =
      below directory names := by
  cases names with
  | nil => simp [Name.ofSegments, below]
  | cons s r =>
    have filled : Name.ofSegments (s :: r) ≠ "" := by
      obtain ⟨c, t, written, -⟩ := (named s List.mem_cons_self).exists_cons
      rw [ne_eq, ← String.toList_inj]
      cases r <;> simp [Name.ofSegments, written]
    rw [if_neg (by simpa using filled), slashed_ofSegments named, below_cons]

/-- What counts encloses the namespace, and nothing that does has more segments. -/
theorem longest_of_chosen? {r : Resolver} (h : r.chosen? names = some e) :
    e ∈ r.mappings.normal.entries ++ r.mappings.priority.entries ∧ Encloses names e ∧
      ∀ f ∈ r.mappings.normal.entries ++ r.mappings.priority.entries, Encloses names f →
        (segments f).length ≤ (segments e).length := by
  unfold chosen? at h
  dsimp only at h
  rw [← List.filter_append] at h
  have within : e ∈ (r.mappings.normal.entries ++ r.mappings.priority.entries).filter (Encloses names ·) ∧
      some (segments e).length = (((r.mappings.normal.entries ++ r.mappings.priority.entries).filter
        (Encloses names ·)).map fun e => (segments e).length).max? := by
    rw [List.filter_append]
    obtain last | ⟨-, first⟩ := Option.or_eq_some_iff.1 h
    · obtain ⟨mem, most⟩ := List.mem_filter.1 (List.mem_of_getLast? last)
      exact ⟨List.mem_append_right _ mem, by simpa using most⟩
    · obtain ⟨mem, most⟩ := List.mem_filter.1 (List.mem_of_head? first)
      exact ⟨List.mem_append_left _ mem, by simpa using most⟩
  obtain ⟨mem, most⟩ := within
  obtain ⟨given, encloses⟩ := List.mem_filter.1 mem
  obtain ⟨-, bound⟩ := List.max?_eq_some_iff.1 most.symm
  refine ⟨given, by simpa using encloses, fun f hf inside => bound _ (List.mem_map_of_mem ?_)⟩
  exact List.mem_filter.2 ⟨hf, by simpa using inside⟩

theorem chosen?_eq_none {r : Resolver} :
    r.chosen? names = none ↔ ∀ e ∈ r.mappings.normal.entries ++ r.mappings.priority.entries, ¬Encloses names e := by
  refine ⟨fun h e he inside => ?_, fun none => ?_⟩
  · unfold chosen? at h
    dsimp only at h
    rw [← List.filter_append, Option.or_eq_none_iff, List.getLast?_eq_none_iff, List.head?_eq_none_iff] at h
    have some : ((r.mappings.normal.entries ++ r.mappings.priority.entries).filter (Encloses names ·)).map
        (fun e => (segments e).length) ≠ [] := by
      rw [ne_eq, List.map_eq_nil_iff, List.filter_eq_nil_iff]
      exact fun none => none e he (by simpa using inside)
    obtain ⟨k, most⟩ := Option.ne_none_iff_exists'.1 (mt List.max?_eq_none_iff.1 some)
    obtain ⟨w, mem, long⟩ := List.mem_map.1 (List.max?_eq_some_iff.1 most).1
    rw [most, List.filter_eq_nil_iff, List.filter_eq_nil_iff] at h
    rw [List.filter_append] at mem
    obtain normal | priority := List.mem_append.1 mem
    · exact h.2 w normal (by simpa using long)
    · exact h.1 w priority (by simpa using long)
  · by_contra some
    obtain ⟨e, found⟩ := Option.ne_none_iff_exists'.1 some
    obtain ⟨given, inside, -⟩ := longest_of_chosen? found
    exact none e given inside

theorem directory_of_bare {r : Resolver} (named : ∀ s ∈ names, Name.IsSegment s)
    (bare : Name.bare scope = Name.ofSegments names) :
    r.directory scope = (r.chosen? names).elim (below r.fallbackRoot names) fun e =>
      below (trimSlashes e.2) (names.drop (segments e).length) := by
  unfold directory
  dsimp only
  rw [bestMatch_bare, bestMatch_eq_chosen? named bare]
  cases chosen : r.chosen? names with
  | none =>
    rw [Option.map_none, Option.elim_none, bare]
    exact below_ofSegments r.fallbackRoot named
  | some e =>
    obtain ⟨-, encloses, -⟩ := longest_of_chosen? chosen
    rw [Option.map_some, Option.elim_some]
    dsimp only
    rw [remainder_eq named bare encloses]
    exact below_ofSegments (trimSlashes e.2) fun s hs => named s (List.mem_of_mem_drop hs)

def withoutClass (name : String) : String :=
  let names := Name.segments (Name.bare name)
  let capital (s : String) : Bool := s.toList.head?.any Text.isUpper
  if 2 ≤ names.length ∧ names.getLast?.any capital then Name.ofSegments names.dropLast else name

theorem directory_bare (r : Resolver) (scope : String) : r.directory (Name.bare scope) = r.directory scope := by
  simp only [directory, Name.bare_bare]

theorem directoryOf_eq (r : Resolver) (name : String) : r.directoryOf name = r.directory (withoutClass name) := by
  rw [directoryOf, scopeOf, withoutClass]
  obtain ⟨alone, split⟩ | ⟨scope, short, joined, alone, split⟩ := Name.splitLast_cases (Name.bare name)
  · simp [Name.segments_of_not_mem alone, alone, directory_bare]
  · have cut : Name.segments (Name.bare name) = Name.segments scope ++ [short] := by
      have cuts := Text.cut_append_break Name.separator scope short
      rw [show Text.cut Name.separator short = [short] from Name.segments_of_not_mem alone, ← String.append_assoc] at cuts
      rw [joined]
      exact cuts
    have several : 2 ≤ (Name.segments scope ++ [short]).length := by
      have some := List.length_pos_iff.2 (Name.segments_ne_nil scope)
      rw [List.length_append, List.length_singleton]
      omega
    have inside : Name.separator ∈ (Name.bare name).toList := by simp [joined, Name.separator]
    have capital : (short.toList.head?.map Text.isUpper).getD false = short.toList.head?.any Text.isUpper := by
      cases short.toList.head? <;> rfl
    simp only [split, cut, several, inside, capital, List.contains_eq_mem, decide_true, Bool.true_and, true_and,
      List.getLast?_append, List.getLast?_singleton, Option.some_or, Option.any_some, List.dropLast_concat,
      Name.ofSegments_segments]
    split
    · rfl
    · rw [directory_bare]

theorem directory_longest (r : Resolver) (named : ∀ s ∈ names, Name.IsSegment s) (m n : Nat) :
    let scope := String.ofList (List.replicate m '\\' ++ (Name.ofSegments names).toList ++ List.replicate n '\\')
    let entries := r.mappings.normal.entries ++ r.mappings.priority.entries
    (r.directory scope = (r.chosen? names).elim (below r.fallbackRoot names) fun e =>
        below (trimSlashes e.2) (names.drop (segments e).length)) ∧
      (r.chosen? names = none ↔ ∀ e ∈ entries, ¬Encloses names e) ∧
      (∀ e, r.chosen? names = some e → e ∈ entries ∧ Encloses names e ∧
        ∀ f ∈ entries, Encloses names f → (segments f).length ≤ (segments e).length) ∧
      ∀ name, r.directoryOf name = r.directory (withoutClass name) := by
  have bare := Name.bare_around m n (Name.head?_ofSegments named) (Name.getLast?_ofSegments named)
  rw [String.ofList_toList] at bare
  exact ⟨directory_of_bare named bare, chosen?_eq_none, fun _ => longest_of_chosen?, directoryOf_eq r⟩

def spellings : Resolver where
  mappings := {
    normal := ⟨[("App\\", "src/"), ("\\App\\Http", "web/"), ("App\\Http", "late")]⟩
    priority := ⟨[("App\\", "first"), ("App", "tests//")]⟩ }

-- A longer entry of the normal table goes before the priority table, whose last entry goes before any as long.
theorem directory_longest_spellings :
    (∀ s ∈ ["App", "Http", "Admin"], Name.IsSegment s) ∧ (∀ s ∈ ["App", "Model"], Name.IsSegment s) ∧
      spellings.directory "\\App\\Http\\Admin" = "web/Admin" ∧
      spellings.directoryOf "App\\Model\\User" = "tests/Model" := by
  have http : ∀ s ∈ ["App", "Http", "Admin"], Name.IsSegment s := by decide
  have model : ∀ s ∈ ["App", "Model"], Name.IsSegment s := by decide
  obtain ⟨nested, -, -, -⟩ := directory_longest spellings http 1 0
  obtain ⟨direct, -, -, place⟩ := directory_longest spellings model 0 0
  refine ⟨http, model, nested.trans (by decide +kernel), (place _).trans ?_⟩
  exact direct.trans (by decide +kernel)

end Resolver

end PhpScaffold
