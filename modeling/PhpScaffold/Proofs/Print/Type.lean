import PhpScaffold.Print.Shorten
import PhpScaffold.Proofs.Except
import PhpScaffold.Proofs.Import.Meaning
import PhpScaffold.Proofs.Name.Expression

namespace PhpScaffold

namespace Print

variable {c : Char} {f : String → String} {s : String}

theorem strung_map_text (ts : List String) : strung (ts.map .text) = .ok ts := by
  refine (Except.mapM_eq_ok (g := fun e => e.1.display) ?_).trans ?_
  · rintro ⟨v, i⟩ mem
    obtain ⟨t, -, rfl⟩ := List.mem_map.1 (List.fst_mem_of_mem_zipIdx mem)
    simp
  · have values : (ts.map Value.text).zipIdx.map (fun e => e.1.display) = (ts.map Value.text).map Value.display := by
      rw [← List.zipIdx_map_fst 0 (ts.map Value.text), List.map_map, List.zipIdx_map_fst]
      rfl
    rw [values]
    simp [Function.comp_def]

namespace WrittenType

def names (w : WrittenType) : List String := Name.names w.plain ++ (w.full.map Name.names).getD []

end WrittenType

def typeNames (expression : String) : List String :=
  if '<' ∈ expression.toList then
    Name.names (.ofList (expression.toList.takeWhile (· ≠ '<'))) ++ Name.names expression
  else Name.names expression

@[simp] theorem typeNames_empty : typeNames "" = [] := by
  simp [typeNames, Name.names_eq]

theorem names_markNullable (plain : String) : Name.names (markNullable plain) = Name.names plain := by
  unfold markNullable
  split
  · rfl
  · have front : "?" ++ plain = .ofList ('?' :: plain.toList) := by
      rw [← String.toList_inj]
      simp
    rw [front, Name.names_cons_gap (by decide), String.ofList_toList]

theorem names_writeType (expression : String) (nullable : Bool) :
    (writeType expression nullable).names = typeNames expression := by
  have marked (plain : String) : Name.names (if nullable then markNullable plain else plain) = Name.names plain := by
    split
    · exact names_markNullable plain
    · rfl
  unfold writeType typeNames
  by_cases generic : '<' ∈ expression.toList
  · simp only [List.contains_eq_mem, generic, decide_true, if_true, WrittenType.names, marked,
      Name.names_trim (fun c => Name.isGap_of_isBlank), Option.map_some, Option.getD_some]
  · simp only [List.contains_eq_mem, generic, decide_false, Bool.false_eq_true, if_false, WrittenType.names, marked,
      Option.map_none, Option.getD_none, List.append_nil]

/-- Whether every backslash of an expression belongs to a name. -/
def Neat (expression : String) : Prop := .other '\\' ∉ Name.tokens expression.toList

instance (expression : String) : Decidable (Neat expression) := inferInstanceAs (Decidable (_ ∉ _))

theorem Neat.front {expression : String} (neat : Neat expression) {c : Char} (gap : Name.IsGap c) :
    Neat (.ofList (expression.toList.takeWhile (· ≠ c))) := by
  by_cases inside : c ∈ expression.toList
  · obtain ⟨t, u, cut, first⟩ := List.eq_append_cons_of_mem inside
    rw [Neat, cut, Name.tokens_append_gap gap, List.mem_append, not_or] at neat
    rw [cut, Text.takeWhile_ne_append first, Neat, String.toList_ofList]
    exact neat.1
  · rwa [Text.takeWhile_ne inside, String.ofList_toList]

theorem names_front_subset (gap : Name.IsGap c) :
    Name.names (.ofList (s.toList.takeWhile (· ≠ c))) ⊆ Name.names s := by
  intro n hn
  by_cases inside : c ∈ s.toList
  · obtain ⟨t, u, cut, first⟩ := List.eq_append_cons_of_mem inside
    rw [cut, Text.takeWhile_ne_append first] at hn
    rw [← String.ofList_toList (s := s), cut, Name.names_append_gap gap]
    exact List.mem_append_left _ hn
  · rwa [Text.takeWhile_ne inside, String.ofList_toList] at hn

theorem typeNames_subset (expression : String) : typeNames expression ⊆ Name.names expression := by
  unfold typeNames
  split
  · exact List.append_subset.2 ⟨names_front_subset (by decide), List.Subset.refl _⟩
  · exact List.Subset.refl _

theorem typeNames_mapNames (neat : Neat s) (whole : ∀ n ∈ Name.names s, Name.IsWhole (f n).toList) :
    typeNames (Name.mapNames f s) = (typeNames s).map f := by
  have gap : Name.IsGap '<' := by decide
  obtain ⟨front, kept⟩ := Name.takeWhile_mapNames gap whole
  have all := Name.names_mapNames neat whole
  by_cases generic : '<' ∈ s.toList
  · have before := Name.names_mapNames (neat.front gap) fun n hn => whole n (names_front_subset gap hn)
    rw [typeNames, typeNames, if_pos (kept.2 generic), if_pos generic, front, String.ofList_toList, before, all,
      List.map_append]
  · rw [typeNames, typeNames, if_neg (generic ∘ kept.1), if_neg generic, all]

end Print

namespace Namespace

variable {scope : String} {uses : Table String} {elements : Roster Element}

theorem exists_shortPieces (between : List Char) (ts : List Name.Token) :
    ∃ pieces : List String, (ofTexts scope uses elements).shortPieces between ts = .ok (pieces.map .text) := by
  induction ts generalizing between with
  | nil =>
    cases between with
    | nil => exact ⟨[], rfl⟩
    | cons c r => exact ⟨[.ofList (c :: r)], rfl⟩
  | cons x r ih =>
    cases x with
    | other c => exact ih (between ++ [c])
    | name t =>
      obtain ⟨pieces, rest⟩ := ih []
      have gap : ∃ lead : List String, shortPieces.gap between = lead.map Value.text := by
        cases between with
        | nil => exact ⟨[], rfl⟩
        | cons c r => exact ⟨[.ofList (c :: r)], rfl⟩
      obtain ⟨lead, gap⟩ := gap
      refine ⟨lead ++ (ofTexts scope uses elements).shorten (.ofList t) :: pieces, ?_⟩
      rw [shortPieces, shortName_ofTexts, Except.ok_bind, rest, Except.ok_bind, gap]
      simp

end Namespace

namespace Print

variable {scope : String} {uses : Table String} {elements : Roster Element}

theorem typeText_ofTexts (expression : String) :
    typeText (.ofTexts scope uses elements) expression =
      .ok ((Namespace.ofTexts scope uses elements).shortenType expression) := by
  obtain ⟨pieces, read⟩ : ∃ pieces : List String, (Namespace.ofTexts scope uses elements).shortPieces []
      (Name.tokens expression.toList) = .ok (pieces.map .text) := Namespace.exists_shortPieces _ _
  rw [typeText, read, Except.ok_bind, strung_map_text]
  rfl

theorem writeType?_ofTexts (expression : String) (nullable : Value) :
    writeType? (.ofTexts scope uses elements) (.text expression) nullable =
      .ok (if expression.isEmpty then none else
        some (writeType ((Namespace.ofTexts scope uses elements).shortenType (Text.trim Text.isBlank expression))
          nullable.truthy)) := by
  simp only [writeType?, typeText_ofTexts]
  split <;> rfl

theorem writeType?_of_not_text {ns : Namespace} {v nullable : Value} {type : Option WrittenType}
    (other : v.text? = none) (h : writeType? ns v nullable = .ok type) : type = none := by
  unfold writeType? at h
  split at h
  · cases other
  · cases h
  · split at h
    · cases h
    · cases h
      rfl

end Print

end PhpScaffold
