import PhpScaffold.Proofs.Name.Token
import PhpScaffold.Proofs.Import.Meaning

/-! Capture.  Case does not count in the names of classes, nor in aliases.  A shortened name means the class that it
stands for unless it is spelled, but for case, like the alias of an import of another class. -/

namespace PhpScaffold

namespace Name

def folded (s : String) : String := .ofList (s.toList.map Char.toLower)

def denoted (scope name : String) : String :=
  if isQualified name || name.toList.head? = some separator then relative name else join scope name

variable {c : Char} {s t : String}

@[simp] theorem folded_empty : folded "" = "" := rfl

@[simp] theorem folded_append (s t : String) : folded (s ++ t) = folded s ++ folded t := by
  simp [folded]

theorem toLower_eq_separator : c.toLower = separator ↔ c = separator := by
  constructor
  · intro h
    unfold Char.toLower at h
    split at h
    · rename_i upper
      have code : (c.val + 32).toNat = 0x5C := congrArg (fun d : Char => d.val.toNat) h
      simp only [ge_iff_le, UInt32.le_iff_toNat_le, Char.toNat_val, Char.reduceToNat] at upper
      rw [UInt32.toNat_add, Char.toNat_val] at code
      have shift : (32 : UInt32).toNat = 32 := rfl
      omega
    · exact h
  · rintro rfl
    rfl

theorem separator_mem_folded : separator ∈ (folded s).toList ↔ separator ∈ s.toList := by
  simp [folded, toLower_eq_separator]

theorem folded_eq_empty : folded s = "" ↔ s = "" := by
  rw [← String.toList_eq_nil_iff, ← String.toList_eq_nil_iff]
  simp [folded]

theorem IsSegment.folded (h : IsSegment s) : IsSegment (folded s) :=
  ⟨fun empty => h.1 (folded_eq_empty.1 empty), fun inside => h.2 (separator_mem_folded.1 inside)⟩

theorem folded_join (scope short : String) : folded (join scope short) = join (folded scope) (folded short) := by
  unfold join
  by_cases empty : scope = ""
  · simp [empty]
  · simp [empty, folded_eq_empty]
    rfl

end Name

def Import.folded (i : Import) : Import := ⟨Name.folded i.name, Name.folded i.aliasName⟩

namespace Namespace

/-- The class that a name written in a namespace means, as it is compared. -/
def refers (ns : Namespace) (written : String) : String :=
  Name.meaning (Name.folded ns.name.display) (ns.imports.map Import.folded) (Name.folded written)

def capturing (ns : Namespace) (written : String) : Option Import :=
  ns.imports.find? fun i => Name.folded i.aliasName = Name.folded written

variable {scope : String} {uses : Table String} {elements : Roster Element} {name written : String}

@[simp] theorem capturing_ofTexts_empty : (ofTexts scope {} elements).capturing written = none := rfl

theorem refers_absolute (ns : Namespace) (full : String) : ns.refers ("\\" ++ full) = Name.folded full := by
  rw [refers, Name.folded_append]
  exact Name.meaning_absolute _ _ _

theorem refers_segment {ns : Namespace} (segment : Name.IsSegment written) :
    ns.refers written =
      ((ns.capturing written).map fun i => Name.folded i.name).getD
        (Name.folded (Name.join ns.name.display written)) := by
  rw [refers, Name.meaning_segment _ _ segment.folded, List.find?_map, Option.map_map, Name.folded_join]
  rfl

theorem shorten_segment (ns : Namespace) {s : String} (single : Name.IsSegment s) (h : name = s ∨ name = "\\" ++ s) :
    ns.shorten name = name := by
  obtain rfl | rfl := h
  · simp [shorten, single.isQualified_eq_false]
  · simp [shorten, single.isQualified_absolute_eq_false]

theorem join_of_member? {segments : List String} {rest : String} (spelled : Name.Spells segments name)
    (member : (ofTexts scope uses elements).member? (Name.ofSegments segments) = some rest) :
    Name.join scope rest = Name.ofSegments segments ∧ rest ∈ segments := by
  obtain ⟨filled, inside, direct, -⟩ := eq_of_member? member
  obtain ⟨front, short, cut, -, last⟩ := spelled.exists_last
  have same : (scope, rest) = (front, short) := by
    rw [← Name.splitLast_append scope direct, ← inside, cut,
      Name.splitLast_append front (spelled.segment short last).2]
  cases same
  exact ⟨by simp [Name.join, filled, cut], last⟩

section

variable (segment : ∀ a ∈ uses.values, Name.IsSegment a)

include segment in
theorem capturing_absolute (full : String) : (ofTexts scope uses elements).capturing ("\\" ++ full) = none := by
  refine List.find?_eq_none.2 fun i hi => ?_
  obtain ⟨entry, -⟩ := (mem_imports_ofTexts scope uses elements).1 hi
  have single := (segment _ (List.mem_map_of_mem entry)).folded
  rw [decide_eq_true_eq]
  intro same
  rw [same, Name.folded_append] at single
  exact single.2 (by simp [Name.folded, Name.separator])

theorem join_of_capturing_eq_none {front short aliasName : String} (filled : front ≠ "") (last : Name.IsSegment short)
    (used : (front ++ "\\" ++ short, aliasName) ∈ uses.entries)
    (none : (ofTexts scope uses elements).capturing aliasName = none) :
    Name.join scope aliasName = front ++ "\\" ++ short := by
  have undeclared : (scope, aliasName) = Name.splitLast (front ++ "\\" ++ short) := by
    by_contra declared
    have := (mem_imports_ofTexts scope uses elements (i := ⟨_, aliasName⟩)).2 ⟨used, declared⟩
    simpa using List.find?_eq_none.1 none _ this
  rw [Name.splitLast_append front last.2, Prod.mk.injEq] at undeclared
  obtain ⟨rfl, rfl⟩ := undeclared
  simp [Name.join, filled]

include segment in
/-- A name that is shortened means the class of the import that it goes by, and else the one that it stands for. -/
theorem refers_shorten (whole : Name.IsWhole name.toList) :
    let ns := ofTexts scope uses elements
    ns.refers (ns.shorten name) =
      ((ns.capturing (ns.shorten name)).map fun i => Name.folded i.name).getD
        (Name.folded (Name.denoted scope name)) := by
  intro ns
  have named : ns.name.display = scope := by simp [ns, ofTexts]
  have absolute (full : String) (h : Name.denoted scope name = full) : ns.refers ("\\" ++ full) =
      ((ns.capturing ("\\" ++ full)).map fun i => Name.folded i.name).getD (Name.folded (Name.denoted scope name)) := by
    rw [refers_absolute, capturing_absolute segment, h]
    rfl
  obtain ⟨segments, some, all, bare, written⟩ := whole.exists_segments
  obtain _ | ⟨s, _ | ⟨t, r⟩⟩ := segments
  · exact absurd rfl some
  · have single : Name.IsSegment s := (all s List.mem_cons_self).isSegment
    have alone : Name.ofSegments [s] = s := by simp [Name.ofSegments]
    rw [alone] at bare written
    rw [shorten_segment ns single written]
    obtain rfl | rfl := written
    · have stands : Name.denoted scope name = Name.join scope name := by
        simp [Name.denoted, single.isQualified_eq_false, single.head?_ne]
      rw [refers_segment single, named, stands]
    · apply absolute
      simp [Name.denoted, bare, Name.separator]
  · have spelled : Name.Spells (s :: t :: r) name := ⟨by simp, fun s hs => (all s hs).isSegment, written⟩
    have stands : Name.denoted scope name = Name.ofSegments (s :: t :: r) := by
      simp [Name.denoted, spelled.isQualified_eq, bare]
    obtain ⟨a, used, written'⟩ | ⟨rest, member, written'⟩ | written' := shorten_cases scope uses elements spelled
    · rw [written', refers_segment (segment a (List.mem_map_of_mem used)), named, stands]
      cases capture : ns.capturing a with
      | some i => rfl
      | none =>
        obtain ⟨front, short, cut, filled, last⟩ := spelled.exists_splitLast
        rw [cut] at used ⊢
        rw [join_of_capturing_eq_none filled last used capture]
    · obtain ⟨inside, last⟩ := join_of_member? spelled member
      rw [written', refers_segment (all rest last).isSegment, named, stands, inside]
    · rw [written']
      exact absolute _ stands

end

theorem mem_values_or_isWhole_shorten (whole : Name.IsWhole name.toList) :
    (ofTexts scope uses elements).shorten name ∈ uses.values ∨
      Name.IsWhole ((ofTexts scope uses elements).shorten name).toList := by
  obtain ⟨segments, some, all, bare, written⟩ := whole.exists_segments
  obtain _ | ⟨s, _ | ⟨t, r⟩⟩ := segments
  · exact absurd rfl some
  · have single : Name.IsSegment s := (all s List.mem_cons_self).isSegment
    have alone : Name.ofSegments [s] = s := by simp [Name.ofSegments]
    rw [alone] at written
    rw [shorten_segment _ single written]
    exact .inr whole
  · have spelled : Name.Spells (s :: t :: r) name := ⟨by simp, fun s hs => (all s hs).isSegment, written⟩
    obtain ⟨a, used, written'⟩ | ⟨rest, member, written'⟩ | written' := shorten_cases scope uses elements spelled
    · rw [written']
      exact .inl (List.mem_map_of_mem used)
    · rw [written']
      exact .inr (all rest (join_of_member? spelled member).2).isWhole
    · rw [written', ← bare]
      obtain ⟨c, u, head, tail, spelled⟩ := whole.exists_tail
      have full : ("\\" ++ Name.relative name).toList = '\\' :: c :: u := by
        rw [String.toList_append, Name.relative_of_head head spelled]
        rfl
      rw [full]
      exact .inr (Name.isWhole_of_tail head tail).2

theorem isWhole_shorten (aliases : ∀ a ∈ uses.values, Name.IsIdentifier a.toList) (whole : Name.IsWhole name.toList) :
    Name.IsWhole ((ofTexts scope uses elements).shorten name).toList :=
  (mem_values_or_isWhole_shorten whole).elim (fun used => (aliases _ used).isWhole) id

end Namespace

end PhpScaffold
