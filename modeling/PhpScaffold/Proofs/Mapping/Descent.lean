import PhpScaffold.Config
import PhpScaffold.Proofs.Files.Inside
import PhpScaffold.Proofs.Mapping.Override
import PhpScaffold.Proofs.Text.Carried

namespace PhpScaffold

namespace Mappings

theorem checkEntry_eq_ok {tier : Tier} {e : String × String} :
    checkEntry tier e = .ok () ↔ (Name.bare e.1).isEmpty = false ∧ Text.allBlank e.2 = false := by
  unfold checkEntry
  cases (Name.bare e.1).isEmpty <;> cases Text.allBlank e.2 <;> simp

theorem forall_of_forM {tier : Tier} {es : List (String × String)} (h : es.forM (checkEntry tier) = .ok ()) :
    ∀ e ∈ es, checkEntry tier e = .ok () := by
  induction es with
  | nil => simp
  | cons e r ih =>
    change (checkEntry tier e >>= fun _ => r.forM (checkEntry tier)) = _ at h
    obtain ⟨_, first, rest⟩ := Except.bind_eq_ok.1 h
    exact List.forall_mem_cons.2 ⟨first, ih rest⟩

theorem filled_of_validate {m : Mappings} (valid : m.validate = .ok ()) :
    ∀ e ∈ m.normal.entries ++ m.priority.entries, e.2 ≠ "" := by
  have named {tier : Tier} {es : List (String × String)} (h : es.forM (checkEntry tier) = .ok ()) :
      ∀ e ∈ es, e.2 ≠ "" := by
    intro e he none
    have filled := (checkEntry_eq_ok.1 (forall_of_forM h e he)).2
    rw [none] at filled
    cases filled
  unfold validate at valid
  split at valid
  · cases valid
  · obtain ⟨_, normal, others⟩ := Except.bind_eq_ok.1 valid
    obtain ⟨_, priority, -⟩ := Except.bind_eq_ok.1 others
    exact List.forall_mem_append.2 ⟨named normal, named priority⟩

end Mappings

namespace Resolver

variable {s t scope : String}

/-- Whether no part of a name, between backslashes or slashes, is a double dot. -/
def Plain (s : String) : Prop := ".." ∉ Text.cut '/' (slashed s)

instance (s : String) : Decidable (Plain s) := inferInstanceAs (Decidable (_ ∉ _))

theorem slashed_append (s t : String) : slashed (s ++ t) = slashed s ++ slashed t := by
  rw [← String.toList_inj]
  simp [slashed, Text.replace]

theorem slashed_separator : slashed "\\" = "/" := by decide +kernel

theorem slashed_eq_self (clear : Name.separator ∉ s.toList) : slashed s = s := by
  rw [← String.toList_inj, slashed, Text.replace, String.toList_map]
  refine (List.map_congr_left fun c hc => if_neg ?_).trans (List.map_id _)
  rintro rfl
  exact clear hc

theorem plain_append : Plain (s ++ "\\" ++ t) ↔ Plain s ∧ Plain t := by
  have cuts := Text.cut_append_break '/' (slashed s) (slashed t)
  rw [show String.singleton '/' = "/" from rfl, ← slashed_separator, ← String.append_assoc] at cuts
  rw [Plain, slashed_append, slashed_append, cuts, List.mem_append, not_or]
  rfl

theorem plain_empty : Plain "" := by decide +kernel

theorem plain_around (m n : Nat) (t : List Char) :
    Plain (.ofList (List.replicate m Name.separator ++ t ++ List.replicate n Name.separator)) ↔ Plain (.ofList t) := by
  have behind (u : List Char) : Plain (.ofList (u ++ List.replicate n Name.separator)) ↔ Plain (.ofList u) := by
    induction n with
    | zero => rw [List.replicate_zero, List.append_nil]
    | succ n ih =>
      have ends : String.ofList (u ++ List.replicate (n + 1) Name.separator) =
          .ofList (u ++ List.replicate n Name.separator) ++ "\\" ++ "" := by
        rw [← String.toList_inj]
        simp [List.replicate_succ', Name.separator]
      rw [ends, plain_append, ih, and_iff_left plain_empty]
  have before : Plain (.ofList (List.replicate m Name.separator ++ t)) ↔ Plain (.ofList t) := by
    induction m with
    | zero => rw [List.replicate_zero, List.nil_append]
    | succ m ih =>
      have starts : String.ofList (List.replicate (m + 1) Name.separator ++ t) =
          "" ++ "\\" ++ .ofList (List.replicate m Name.separator ++ t) := by
        rw [← String.toList_inj]
        simp [List.replicate_succ, Name.separator]
      rw [starts, plain_append, ih, and_iff_right plain_empty]
  exact (behind _).trans before

theorem plain_bare : Plain (Name.bare s) ↔ Plain s := by
  obtain ⟨front, back, whole, before, behind⟩ := Text.exists_trimBoth (· = Name.separator) s.toList
  rw [List.eq_replicate_of_mem fun c hc => of_decide_eq_true (before c hc),
    List.eq_replicate_of_mem fun c hc => of_decide_eq_true (behind c hc)] at whole
  rw [Name.bare, Text.trim, ← plain_around front.length back.length, ← whole, String.ofList_toList]

theorem plain_iff {name : String} : Plain name ↔ Plain (Name.scope name) ∧ Plain (Name.short name) := by
  obtain ⟨⟨m, n, inner, whole, -, -, cut⟩, -⟩ := Name.parts name
  have core : Plain name ↔ Plain (.ofList inner) := by rw [← plain_around m n, ← whole, String.ofList_toList]
  obtain joined | ⟨none, alone⟩ := cut
  · have written : String.ofList inner = Name.scope name ++ "\\" ++ Name.short name := by
      rw [← String.toList_inj]
      simp [joined, Name.separator]
    rw [core, written, plain_append]
  · rw [core, alone, String.ofList_toList, none, and_iff_right plain_empty]

theorem plain_remainder {e : String × String} (plain : Plain scope) (covers : Covers scope e) :
    Plain (remainder (Name.bare scope) (toMatch e)) := by
  obtain ⟨rest, starts⟩ := List.isPrefixOf_iff_prefix.1 covers.2
  have left : (Name.bare scope ++ "\\").toList.drop (toMatch e).lead.length = rest := by
    change (target scope).toList.drop (lead e).length = rest
    rw [← starts, ← String.length_toList, List.drop_left]
  have whole : target scope = Name.bare e.1 ++ "\\" ++ .ofList rest := by
    rw [← String.toList_inj, ← starts, lead]
    simp
  have closed : Plain (target scope) := by
    rw [target, ← String.append_empty (s := Name.bare scope ++ "\\"), plain_append, plain_bare]
    exact ⟨plain, plain_empty⟩
  rw [whole, plain_append] at closed
  rw [remainder, left, plain_bare]
  exact closed.2

theorem exists_of_bestMatch {r : Resolver} {m : Match} (h : r.bestMatch scope = some m) :
    ∃ e ∈ r.mappings.normal.entries ++ r.mappings.priority.entries, Covers scope e ∧ m = toMatch e := by
  obtain inner | ⟨e, he, found⟩ := exists_of_scan h
  · obtain none | ⟨e, he, found⟩ := exists_of_scan inner
    · cases none
    · exact ⟨e, List.mem_append_left _ he, found⟩
  · exact ⟨e, List.mem_append_right _ he, found⟩

theorem Plain.not_mem_parts (h : Plain s) : ".." ∉ (Path.ofText (slashed s)).parts :=
  fun mem => h (List.mem_of_mem_filter mem)

/-- The directory of a namespace stays below the root where the mapped ones do. -/
theorem descends_directory {r : Resolver} (plain : Plain scope)
    (mapped : ∀ e ∈ r.mappings.normal.entries ++ r.mappings.priority.entries, Path.Descends e.2 ∧ e.2 ≠ "")
    (fallback : Path.Descends r.fallback ∧ r.fallback ≠ "") : Path.Descends (r.directory scope) := by
  unfold directory
  dsimp only
  rw [bestMatch_bare]
  cases found : r.bestMatch scope with
  | none =>
    obtain ⟨down, filled⟩ := fallback.1.trimEnd fallback.2
    dsimp only
    split
    · exact down
    · exact down.append filled (plain_bare.2 plain).not_mem_parts
  | some m =>
    obtain ⟨e, he, covers, rfl⟩ := exists_of_bestMatch found
    obtain ⟨down, filled⟩ := (mapped e he).1.trimEnd (mapped e he).2
    dsimp only
    split
    · exact down
    · exact down.append filled (plain_remainder plain covers).not_mem_parts

theorem descends_file {short : String} (plain : Plain short) (last : Name.separator ∉ short.toList)
    (first : short.toList.head? ≠ some '/') : Path.Descends (short ++ ".php") := by
  constructor
  · rw [Path.absolute_ofText, String.toList_append, List.head?_append]
    cases start : short.toList.head? with
    | none => decide
    | some c => simpa [start] using first
  · rw [Plain, slashed_eq_self last] at plain
    obtain none | ⟨above, l, cuts⟩ := List.eq_nil_or_concat (Text.cut '/' short)
    · exact absurd (List.map_eq_nil_iff.1 none) (List.splitOn_ne_nil _ _)
    · rw [List.concat_eq_append] at cuts
      have whole := Text.cut_append cuts (show Text.cut '/' ".php" = [".php"] by decide +kernel)
      intro mem
      have there := List.mem_of_mem_filter mem
      rw [whole, List.mem_append, List.mem_singleton] at there
      obtain inner | final := there
      · exact plain (cuts ▸ List.mem_append_left _ inner)
      · -- the last part ends in the suffix, so it is too long to be a double dot
        have length : "..".length = l.length + ".php".length := by rw [← String.length_append, ← final]
        rw [show "..".length = 2 by decide, show ".php".length = 4 by decide] at length
        omega

end Resolver

end PhpScaffold
