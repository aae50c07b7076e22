import PhpScaffold.CommandLine
import PhpScaffold.Proofs.Except
import PhpScaffold.Proofs.Json.Write
import PhpScaffold.Proofs.Service.Answer
import PhpScaffold.Proofs.Text.Plain

namespace PhpScaffold

namespace Text

variable {n : Nat} {c : Char} {t u l : List Char}

theorem Holds.append (h : Holds t n) (u : List Char) : Holds (t ++ u) n := ⟨mem_codes_append h.1 h.2 u, h.2⟩

theorem Holds.behind (h : Holds u n) (plain : isMark c = false) (t : List Char) : Holds (t ++ c :: u) n := by
  fun_induction codes t with
  | case1 => exact (holds_unmarked plain).2 (.inr h)
  | case2 d =>
    cases mark : isMark d with
    | true => exact (holds_marked mark).2 (.inr h)
    | false => exact (holds_unmarked mark).2 (.inr ((holds_unmarked plain).2 (.inr h)))
  | case3 d e r mark ih => exact (holds_marked mark).2 (.inr ih)
  | case4 d e r mark ih => exact (holds_unmarked (by simpa using mark)).2 (.inr ih)

theorem isMark_of_isLineBreak (h : isLineBreak c = true) : isMark c = false := by
  rw [isMark, decide_eq_false_iff_not]
  intro same
  obtain rfl : c = Char.ofNat markCode := by rw [← same, Char.ofNat_toNat]
  exact absurd h (by decide)

theorem head_splitLines {ls : List (List Char)} (h : splitLines t = l :: ls) : l <+: t := by
  fun_induction splitLines t generalizing l ls with
  | case1 => cases h
  | case2 r ih =>
    cases h
    exact List.nil_prefix
  | case3 c r other ends ih =>
    cases h
    exact List.nil_prefix
  | case4 c r other within none ih =>
    cases h
    exact List.prefix_append [c] r
  | case5 c r other within first rest some ih =>
    cases h
    exact (List.prefix_cons_inj c).2 (ih some)

/-- A later line stands behind a line end, whatever is put in front of the text. -/
theorem Holds.of_mem_tail (h : l ∈ (splitLines t).tail) (held : Holds l n) (s : List Char) : Holds (s ++ t) n := by
  have line {r : List Char} {b : Char} (ends : isLineBreak b = true) (s : List Char) (inside : l ∈ splitLines r)
      (later : l ∈ (splitLines r).tail → ∀ s, Holds (s ++ r) n) : Holds (s ++ b :: r) n := by
    cases cut : splitLines r with
    | nil =>
      rw [cut] at inside
      cases inside
    | cons first rest =>
      obtain rfl | more := List.mem_cons.1 (cut ▸ inside)
      · obtain ⟨u, rfl⟩ := head_splitLines cut
        exact (held.append u).behind (isMark_of_isLineBreak ends) s
      · exact List.append_cons s b r ▸ later (cut ▸ more) (s ++ [b])
  fun_induction splitLines t generalizing s with
  | case1 => cases h
  | case2 r ih =>
    rw [List.append_cons]
    exact line (by decide) _ h fun more => ih more
  | case3 c r other ends ih => exact line ends s h fun more => ih more
  | case4 c r other within none ih => cases h
  | case5 c r other within first rest some ih =>
    rw [List.append_cons]
    rw [some] at ih
    exact ih h _

theorem Holds.of_mem_splitLines (h : l ∈ splitLines t) (held : Holds l n) : Holds t n := by
  cases cut : splitLines t with
  | nil =>
    rw [cut] at h
    cases h
  | cons first rest =>
    obtain rfl | more := List.mem_cons.1 (cut ▸ h)
    · obtain ⟨u, rfl⟩ := head_splitLines cut
      exact held.append u
    · exact held.of_mem_tail (cut ▸ more) []

end Text

open Text (IsBasic Holds)

theorem isStorable_of_mem_lines {s l : String} (h : IsStorable s) (there : l ∈ Text.lines s) : IsStorable l := by
  obtain ⟨cs, hcs, rfl⟩ := List.mem_map.1 there
  intro n held
  rw [String.toList_ofList] at held
  exact h n (held.of_mem_splitLines hcs)

section

variable {s t : String}

theorem IsStorable.append (hs : IsStorable s) (ht : IsStorable t) (start : ∀ c ∈ t.toList.head?, IsBasic c) :
    IsStorable (s ++ t) := by
  intro n held
  rw [String.toList_append] at held
  exact (Text.holds_append start held).elim (hs n) (ht n)

theorem IsStorable.after (ht : IsStorable t) (basic : ∀ c ∈ s.toList, IsBasic c) : IsStorable (s ++ t) := by
  intro n held
  rw [String.toList_append, Text.holds_basic_append basic] at held
  exact ht n held

theorem isStorable_of_basic (basic : ∀ c ∈ s.toList, IsBasic c) : IsStorable s := (Json.isPart_of_basic basic).storable

theorem isStorable_feeds {ls : List String} (h : ∀ l ∈ ls, IsStorable l) : IsStorable ("\n".intercalate ls) := by
  induction ls with
  | nil => exact isStorable_of_basic (by decide)
  | cons l r ih =>
    obtain ⟨first, rest⟩ := List.forall_mem_cons.1 h
    cases r with
    | nil => rwa [String.intercalate_singleton]
    | cons m r =>
      rw [String.intercalate_cons_cons, String.append_assoc]
      refine first.append ((ih rest).after (by decide)) ?_
      simp +decide [String.toList_append]

end

namespace Path

variable {p q base : Path} {n : Nat}

theorem holds_intercalate {front rest : List String} (held : Holds ("/".intercalate rest).toList n) :
    Holds ("/".intercalate (front ++ rest)).toList n := by
  have some : rest ≠ [] := by
    rintro rfl
    cases held.1
  induction front with
  | nil => exact held
  | cons part r ih =>
    obtain ⟨next, others, cut⟩ := List.exists_cons_of_ne_nil (List.append_ne_nil_of_right_ne_nil r some)
    rw [cut] at ih
    rw [List.cons_append, cut, String.intercalate_cons_cons, String.append_assoc, String.toList_append,
      String.toList_append]
    exact ih.behind (by decide) part.toList

theorem isStorable_below? (h : IsStorable p.text) (below : p.below? base = some q) : IsStorable q.text := by
  rw [below?, Option.ite_none_right_eq_some] at below
  obtain ⟨⟨-, starts⟩, same⟩ := below
  obtain rfl := Option.some.inj same
  obtain ⟨rest, parts⟩ := List.isPrefixOf_iff_prefix.1 starts
  rw [← parts, List.drop_left]
  intro n held
  have lead : ∀ c ∈ p.lead.text.toList, IsBasic c := by cases p.lead <;> decide
  cases rest with
  | nil => exact isStorable_of_basic (s := ".") (by decide) n held
  | cons part others =>
    have own : Path.text ⟨.here, part :: others⟩ = "/".intercalate (part :: others) := by simp [Path.text, Lead.text]
    have whole : p.text = p.lead.text ++ "/".intercalate (base.parts ++ part :: others) := by
      rw [Path.text, ← parts]
      simp
    rw [own] at held
    refine h n ?_
    rw [whole, String.toList_append, Text.holds_basic_append lead]
    exact holds_intercalate held

theorem isStorable_relativeTo (h : IsStorable p.text) (base : Path) : IsStorable (p.relativeTo base).text := by
  unfold relativeTo
  cases below : p.below? base with
  | none => exact h
  | some q => exact isStorable_below? h below

end Path

namespace CommandLine

theorem isBasic_toString (k : Nat) : ∀ c ∈ (toString k).toList, IsBasic c := by
  intro c hc
  have digit := Nat.isDigit_of_mem_toDigits (by decide) (by decide) (Nat.toList_repr ▸ hc)
  exact Nat.lt_of_le_of_lt (Char.isDigit_iff_toNat.1 digit).2 (by decide)

theorem isStorable_excerpt {content : String} (h : IsStorable content) : IsStorable (excerpt content) := by
  have shown : IsStorable ("\n".intercalate ((Text.lines content).take shownLines)) :=
    isStorable_feeds fun l hl => isStorable_of_mem_lines h (List.mem_of_mem_take hl)
  unfold excerpt
  dsimp only
  split
  · have count : Json.IsPart ("\n... (truncated, " ++
        (toString ((Text.lines content).length - shownLines) ++ " more lines)")) :=
      (Json.isPart_of_basic (by decide)).append
        ((Json.isPart_of_basic (isBasic_toString _)).append (Json.isPart_of_basic (by decide)))
    rw [String.append_assoc, String.append_assoc]
    exact shown.append count.storable count.start
  · exact shown

def toldLines (dryRun verbose : Bool) (cwd : Path) (paths : List Path) (shown : List Preview) : List String :=
  if dryRun then "Preview mode - no files will be created" :: previewsLines verbose cwd shown
  else "Generating files..." :: paths.map (fun q => "Generated " ++ (q.relativeTo cwd).text) ++
    ["Code generation completed successfully!"]

theorem isStorable_previewLines {q : Preview} (verbose : Bool) (cwd : Path) (h : ∀ s ∈ Service.texts q, IsStorable s) :
    ∀ s ∈ previewLines verbose cwd q, IsStorable s := by
  obtain ⟨path, name, scope, content⟩ : IsStorable q.path.text ∧ IsStorable q.className.display ∧
      IsStorable q.scope ∧ IsStorable q.content := by
    simpa [Service.texts] using h
  rw [previewLines, List.forall_mem_append]
  constructor
  · simp only [List.forall_mem_cons]
    exact ⟨isStorable_of_basic (by decide), name, (Path.isStorable_relativeTo path cwd).after (by decide),
      name.after (by decide), scope.after (by decide), List.forall_mem_nil _⟩
  · split
    · simp only [List.forall_mem_cons]
      exact ⟨isStorable_of_basic (by decide), isStorable_excerpt content, List.forall_mem_nil _⟩
    · exact List.forall_mem_nil _

theorem isStorable_toldLines {paths : List Path} {shown : List Preview} (dryRun verbose : Bool) (cwd : Path)
    (h : ∀ s ∈ paths.map Path.text ++ shown.flatMap Service.texts, IsStorable s) :
    ∀ s ∈ toldLines dryRun verbose cwd paths shown, IsStorable s := by
  obtain ⟨files, previews⟩ := List.forall_mem_append.1 h
  have plain {s : String} (basic : ∀ c ∈ s.toList, IsBasic c) : IsStorable s := isStorable_of_basic basic
  cases dryRun with
  | false =>
    refine List.forall_mem_cons.2 ⟨plain (by decide), List.forall_mem_append.2 ⟨List.forall_mem_map.2 fun q hq => ?_,
      List.forall_mem_singleton.2 (plain (by decide))⟩⟩
    exact (Path.isStorable_relativeTo (files _ (List.mem_map_of_mem hq)) cwd).after (by decide)
  | true =>
    refine List.forall_mem_cons.2 ⟨plain (by decide), ?_⟩
    cases shown with
    | nil => exact List.forall_mem_singleton.2 (plain (by decide))
    | cons q r =>
      refine List.forall_mem_cons.2 ⟨plain (by decide), List.forall_mem_append.2 ⟨?_, ?_⟩⟩
      · intro s hs
        obtain ⟨p, hp, there⟩ := List.mem_flatMap.1 hs
        exact isStorable_previewLines verbose cwd (fun d hd => previews d (List.mem_flatMap.2 ⟨p, hp, hd⟩)) s there
      · cases verbose
        · exact List.forall_mem_cons.2 ⟨plain (by decide), List.forall_mem_singleton.2 (plain (by decide))⟩
        · exact List.forall_mem_nil _

end CommandLine

namespace Output

variable {o : Output}

theorem say_of_encode {ls : List String} (h : ∀ s ∈ ls, o.encode s = .ok ()) : o.say ls = (ls, none) := by
  induction ls with
  | nil => rfl
  | cons s r ih =>
    obtain ⟨first, rest⟩ := List.forall_mem_cons.1 h
    simp [say, first, ih rest]

theorem say_cases (o : Output) (ls : List String) :
    (o.say ls = (ls, none) ∧ ∀ s ∈ ls, o.encode s = .ok ()) ∨
    ∃ before s after f, ls = before ++ s :: after ∧ o.say ls = (before, some f) ∧ o.encode s = .error f ∧
      ∀ d ∈ before, o.encode d = .ok () := by
  induction ls with
  | nil => exact .inl ⟨rfl, List.forall_mem_nil _⟩
  | cons s r ih =>
    cases carried : o.encode s with
    | error f => exact .inr ⟨[], s, r, f, rfl, by simp [say, carried], carried, List.forall_mem_nil _⟩
    | ok _ =>
      obtain ⟨said, all⟩ | ⟨before, d, after, f, rfl, said, refused, all⟩ := ih
      · exact .inl ⟨by simp [say, carried, said], List.forall_mem_cons.2 ⟨carried, all⟩⟩
      · exact .inr ⟨s :: before, d, after, f, rfl, by simp [say, carried, said], refused,
          List.forall_mem_cons.2 ⟨carried, all⟩⟩

end Output

end PhpScaffold
