import PhpScaffold.Print.Shorten
import PhpScaffold.Proofs.Name
import Mathlib.Data.List.Nodup

namespace PhpScaffold

structure Import where
  name : String
  aliasName : String
  deriving DecidableEq

namespace Import

def text (i : Import) : String :=
  if i.aliasName = (Name.splitLast i.name).2 then i.name else i.name ++ " as " ++ i.aliasName

def ofText (s : String) : Import :=
  let name := String.ofList (s.toList.takeWhile (· ≠ ' '))
  match s.toList.dropWhile (· ≠ ' ') with
  | ' ' :: 'a' :: 's' :: ' ' :: r => ⟨name, .ofList r⟩
  | _ => ⟨name, (Name.splitLast name).2⟩

theorem ofText_text {i : Import} (h : ' ' ∉ i.name.toList) : ofText i.text = i := by
  by_cases ha : i.aliasName = (Name.splitLast i.name).2
  · rw [text, if_pos ha]
    simp only [ofText, Text.takeWhile_ne h, Text.dropWhile_ne h, String.ofList_toList, ← ha]
  · have whole : (i.name ++ " as " ++ i.aliasName).toList =
        i.name.toList ++ ' ' :: 'a' :: 's' :: ' ' :: i.aliasName.toList := by
      simp
    rw [text, if_neg ha]
    simp only [ofText, whole, Text.takeWhile_ne_append h, Text.dropWhile_ne_append h, String.ofList_toList]

end Import

namespace Name

-- Segments are compared as they are written, since the aliases that a namespace gives away differ in no other way.
-- Where the case of letters counts for nothing, names are folded before they get here.
/-- The class that a name means where it is written. -/
def meaning (scope : String) (imports : List Import) (written : String) : String :=
  match written.toList with
  | '\\' :: r => .ofList r
  | t =>
    match imports.find? (·.aliasName.toList = t.takeWhile (· ≠ separator)) with
    | some i => i.name ++ .ofList (t.dropWhile (· ≠ separator))
    | none => join scope written

theorem meaning_absolute (scope : String) (imports : List Import) (name : String) :
    meaning scope imports ("\\" ++ name) = name := by
  have front : ("\\" ++ name).toList = '\\' :: name.toList := by simp
  simp only [meaning, front, String.ofList_toList]

theorem meaning_segment (scope : String) (imports : List Import) {s : String} (h : IsSegment s) :
    meaning scope imports s =
      ((imports.find? (·.aliasName = s)).map Import.name).getD (join scope s) := by
  obtain ⟨c, r, hs, hc⟩ := h.exists_cons
  unfold meaning
  split
  · rename_i t hl
    rw [hs, List.cons.injEq] at hl
    exact absurd hl.1 hc
  · simp only [Text.takeWhile_ne h.2, Text.dropWhile_ne h.2, String.toList_inj]
    cases imports.find? (·.aliasName = s) <;> simp

end Name

namespace Namespace

def ofTexts (scope : String) (uses : Table String) (elements : Roster Element) : Namespace :=
  { name := scope, uses := uses.map .text, elements }

def declared? (ns : Namespace) (e : String × Value) : Option Import :=
  (ns.useStatement? e.1 e.2).map fun _ => ⟨e.1, e.2.display⟩

def imports (ns : Namespace) : List Import := ns.uses.entries.filterMap ns.declared?

section

variable (scope : String) (uses : Table String) (elements : Roster Element)

theorem useStatement?_ofTexts (name aliasName : String) :
    (ofTexts scope uses elements).useStatement? name (.text aliasName) =
      if (scope, aliasName) = Name.splitLast name then none else some (Import.text ⟨name, aliasName⟩) := by
  simp only [useStatement?, ofTexts, Value.same_text, Value.display_text, Import.text, beq_iff_eq]
  by_cases ha : aliasName = (Name.splitLast name).2 <;> by_cases hs : scope = (Name.splitLast name).1 <;>
    simp [ha, hs, Prod.ext_iff]

theorem declared?_ofTexts (name aliasName : String) :
    (ofTexts scope uses elements).declared? (name, .text aliasName) =
      if (scope, aliasName) = Name.splitLast name then none else some ⟨name, aliasName⟩ := by
  rw [declared?, useStatement?_ofTexts]
  split <;> simp

theorem imports_ofTexts :
    (ofTexts scope uses elements).imports = uses.entries.filterMap fun e =>
      if (scope, e.2) = Name.splitLast e.1 then none else some ⟨e.1, e.2⟩ := by
  rw [imports]
  simp only [ofTexts, Table.map, List.filterMap_map]
  apply List.filterMap_congr
  intro e _
  exact declared?_ofTexts scope uses elements e.1 e.2

theorem useStatements_ofTexts :
    (ofTexts scope uses elements).useStatements = (ofTexts scope uses elements).imports.map Import.text := by
  rw [imports_ofTexts, useStatements, List.map_filterMap]
  simp only [ofTexts, Table.map, List.filterMap_map]
  apply List.filterMap_congr
  intro e _
  have := useStatement?_ofTexts scope uses elements e.1 e.2
  simp only [ofTexts, Table.map] at this
  simp only [Function.comp_apply, this]
  split <;> simp

theorem mem_imports_ofTexts {i : Import} :
    i ∈ (ofTexts scope uses elements).imports ↔
      (i.name, i.aliasName) ∈ uses.entries ∧ (scope, i.aliasName) ≠ Name.splitLast i.name := by
  rw [imports_ofTexts, List.mem_filterMap]
  constructor
  · rintro ⟨e, he, hi⟩
    split at hi
    · simp at hi
    · rename_i hd
      cases hi
      exact ⟨he, hd⟩
  · rintro ⟨he, hd⟩
    exact ⟨_, he, if_neg hd⟩

end

section

variable {scope : String} {uses : Table String} {elements : Roster Element}

theorem name_of_find? (distinct : uses.values.Nodup) {full aliasName : String} {i : Import}
    (used : (full, aliasName) ∈ uses.entries)
    (found : (ofTexts scope uses elements).imports.find? (·.aliasName = aliasName) = some i) :
    i = ⟨full, aliasName⟩ := by
  have same : i.aliasName = aliasName := by simpa using List.find?_some found
  have entry := ((mem_imports_ofTexts scope uses elements).1 (List.mem_of_find?_eq_some found)).1
  have := List.inj_on_of_nodup_map distinct entry used same
  cases i
  simp_all

theorem meaning_alias (distinct : uses.values.Nodup) {front aliasName short : String}
    (used : (front ++ "\\" ++ short, aliasName) ∈ uses.entries) (segment : Name.IsSegment aliasName)
    (filled : front ≠ "") (last : Name.IsSegment short) :
    Name.meaning scope (ofTexts scope uses elements).imports aliasName = front ++ "\\" ++ short := by
  rw [Name.meaning_segment scope _ segment]
  cases found : (ofTexts scope uses elements).imports.find? (·.aliasName = aliasName) with
  | some i =>
    rw [name_of_find? distinct used found]
    rfl
  | none =>
    have undeclared : (scope, aliasName) = Name.splitLast (front ++ "\\" ++ short) := by
      by_contra hd
      have := (mem_imports_ofTexts scope uses elements (i := ⟨_, aliasName⟩)).2 ⟨used, hd⟩
      have := List.find?_eq_none.1 found _ this
      simp at this
    rw [Name.splitLast_append front last.2, Prod.mk.injEq] at undeclared
    obtain ⟨rfl, rfl⟩ := undeclared
    simp [Name.join, filled]

theorem meaning_member {short : String} (segment : Name.IsSegment short) (filled : scope ≠ "")
    (free : short ∉ uses.values) :
    Name.meaning scope (ofTexts scope uses elements).imports short = scope ++ "\\" ++ short := by
  have none : (ofTexts scope uses elements).imports.find? (·.aliasName = short) = none := by
    rw [List.find?_eq_none]
    intro i hi same
    obtain ⟨entry, -⟩ := (mem_imports_ofTexts scope uses elements).1 hi
    simp only [decide_eq_true_eq] at same
    exact free (same ▸ List.mem_map_of_mem entry)
  rw [Name.meaning_segment scope _ segment, none]
  simp [Name.join, filled]

theorem aliasOf?_ofTexts (full : String) :
    (ofTexts scope uses elements).aliasOf? full = ((uses.get? full).filter fun a => !a.isEmpty).map .text := by
  simp only [aliasOf?, ofTexts, Table.get?_map]
  cases uses.get? full with
  | none => rfl
  | some a => by_cases h : a.isEmpty <;> simp [Option.filter, Value.truthy, h]

theorem eq_of_inside? {full rest : String} (h : (ofTexts scope uses elements).inside? full = some rest) :
    scope ≠ "" ∧ full = scope ++ "\\" ++ rest := by
  simp only [inside?, ofTexts] at h
  split at h
  · rename_i hs
    simp only [Bool.and_eq_true, Bool.not_eq_true', Text.startsWith, List.isPrefixOf_iff_prefix] at hs
    obtain ⟨hscope, t, ht⟩ := hs
    refine ⟨by simpa using hscope, ?_⟩
    rw [Option.some.injEq, ← ht, ← String.length_toList, List.drop_left] at h
    rw [← String.toList_inj, ← ht, ← h]
    simp
  · simp at h

theorem eq_of_member? {full rest : String} (h : (ofTexts scope uses elements).member? full = some rest) :
    scope ≠ "" ∧ full = scope ++ "\\" ++ rest ∧ Name.separator ∉ rest.toList ∧ rest ∉ uses.values := by
  rw [member?, Option.filter_eq_some_iff] at h
  obtain ⟨inside, direct⟩ := h
  obtain ⟨filled, whole⟩ := eq_of_inside? inside
  simp only [ofTexts, Table.values_map, Bool.and_eq_true, Bool.not_eq_true', List.any_map, List.any_eq_false,
    Function.comp_apply, Value.same_text, beq_iff_eq, List.contains_eq_mem, decide_eq_false_iff_not] at direct
  exact ⟨filled, whole, direct.1, fun hm => direct.2 _ hm rfl⟩

variable (scope uses elements) in
theorem shorten_cases {segments : List String} {name : String} (h : Name.Spells segments name) :
    (∃ a, (Name.ofSegments segments, a) ∈ uses.entries ∧ (ofTexts scope uses elements).shorten name = a) ∨
    (∃ rest, (ofTexts scope uses elements).member? (Name.ofSegments segments) = some rest ∧
      (ofTexts scope uses elements).shorten name = rest) ∨
    (ofTexts scope uses elements).shorten name = "\\" ++ Name.ofSegments segments := by
  simp only [shorten, h.isQualified_eq, h.relative_eq, aliasOf?_ofTexts, Bool.not_true, Bool.false_eq_true,
    if_false]
  cases used : (uses.get? (Name.ofSegments segments)).filter fun a => !a.isEmpty with
  | some a =>
    left
    exact ⟨a, Table.mem_of_get? (Option.eq_some_of_filter_eq_some used), by simp⟩
  | none =>
    right
    cases (ofTexts scope uses elements).member? (Name.ofSegments segments) with
    | some rest => exact .inl ⟨rest, rfl, rfl⟩
    | none => exact .inr rfl

theorem meaning_shorten {segments : List String} {name : String} (h : Name.Spells segments name)
    (distinct : uses.values.Nodup) (segment : ∀ a ∈ uses.values, Name.IsSegment a) :
    Name.meaning scope (ofTexts scope uses elements).imports ((ofTexts scope uses elements).shorten name) =
      Name.ofSegments segments := by
  obtain ⟨front, short, whole, filled, last⟩ := h.exists_splitLast
  obtain ⟨a, used, written⟩ | ⟨rest, member, written⟩ | written := shorten_cases scope uses elements h
  · rw [written, whole]
    rw [whole] at used
    exact meaning_alias distinct used (segment a (List.mem_map_of_mem used)) filled last
  · obtain ⟨named, inside, direct, free⟩ := eq_of_member? member
    have same : (scope, rest) = (front, short) := by
      rw [← Name.splitLast_append scope direct, ← inside, whole, Name.splitLast_append front last.2]
    cases same
    rw [written, whole]
    exact meaning_member last named free
  · rw [written]
    exact Name.meaning_absolute scope _ _

theorem shortName_ofTexts (name : String) :
    (ofTexts scope uses elements).shortName name = .ok (.text ((ofTexts scope uses elements).shorten name)) := by
  simp only [shortName, shorten]
  split
  · rfl
  · rw [aliasOf?_ofTexts]
    cases (uses.get? (Name.relative name)).filter fun a => !a.isEmpty with
    | some a => simp only [Option.map_some, Value.display_text]; rfl
    | none => rfl

/-- The statements as they are written tell which imports there are. -/
theorem ofText_useStatements (plain : ∀ n ∈ uses.keys, ' ' ∉ n.toList) :
    (ofTexts scope uses elements).useStatements.map Import.ofText = (ofTexts scope uses elements).imports := by
  have told : ∀ i ∈ (ofTexts scope uses elements).imports, (Import.ofText ∘ Import.text) i = id i := by
    intro i hi
    obtain ⟨entry, -⟩ := (mem_imports_ofTexts scope uses elements).1 hi
    have named : i.name ∈ uses.keys := List.mem_map_of_mem entry
    rw [Function.comp_apply, Import.ofText_text (plain i.name named), id]
  rw [useStatements_ofTexts, List.map_map, List.map_congr_left told, List.map_id]

/-- Shortening a qualified name does not change what it means. -/
theorem meaning_shortName {segments : List String} {name : String} (spelled : Name.Spells segments name)
    (distinct : uses.values.Nodup) (segment : ∀ a ∈ uses.values, Name.IsSegment a) :
    let ns := ofTexts scope uses elements
    ∃ written, ns.shortName (.text name) = .ok (.text written) ∧
      Name.meaning scope ns.imports written = Name.ofSegments segments ∧
      ns.useStatements = ns.imports.map Import.text ∧
      ((∀ n ∈ uses.keys, ' ' ∉ n.toList) → ns.useStatements.map Import.ofText = ns.imports) := by
  intro ns
  refine ⟨ns.shorten name, shortName_ofTexts name, meaning_shorten spelled distinct segment, ?_, ?_⟩
  · exact useStatements_ofTexts scope uses elements
  · exact ofText_useStatements

theorem meaning_shortName_in_scope :
    let uses : Table String := ⟨[("B\\Order", "BOrder"), ("App\\Order", "Order")]⟩
    let ns := ofTexts "App" uses {}
    Name.Spells ["App", "Order"] "\\App\\Order" ∧ uses.values.Nodup ∧ (∀ a ∈ uses.values, Name.IsSegment a) ∧
      ns.useStatements = ["B\\Order as BOrder"] ∧
      ∃ written, ns.shortName (.text "\\App\\Order") = .ok (.text written) ∧
        Name.meaning "App" ns.imports written = "App\\Order" := by
  intro uses ns
  have spelled : Name.Spells ["App", "Order"] "\\App\\Order" := ⟨by decide, by decide, .inr rfl⟩
  have distinct : uses.values.Nodup := by decide
  have segment : ∀ a ∈ uses.values, Name.IsSegment a := by decide
  obtain ⟨written, short, meaning, -, -⟩ := @meaning_shortName "App" uses {} _ _ spelled distinct segment
  have statements : ns.useStatements = ["B\\Order as BOrder"] := by
    rw [useStatements_ofTexts, imports_ofTexts]
    decide
  exact ⟨spelled, distinct, segment, statements, written, short, meaning⟩

end

end Namespace

end PhpScaffold
