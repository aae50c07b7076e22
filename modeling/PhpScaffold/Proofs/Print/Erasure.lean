import PhpScaffold.Proofs.Print.Native
import PhpScaffold.Proofs.Print.Type
import Mathlib

namespace PhpScaffold.Print

/-- A part of a declared type.  What stands between angle brackets or round ones are declared types again: each is a
list of alternatives, and an alternative a list of parts. -/
inductive Atom
  | name (n : String)
  | nullable (a : Atom)
  | generic (n : String) (arguments : List (List (List Atom)))
  | signature (n : String) (parameters : List (List (List Atom))) (result : List (List Atom))

abbrev TypeExpr := List (List Atom)

namespace Atom

mutual

def text : Atom → String
  | .name n => n
  | .nullable a => "?" ++ a.text
  | .generic n arguments => n ++ "<" ++ ",".intercalate (expressions arguments) ++ ">"
  | .signature n parameters result =>
    n ++ "(" ++ ",".intercalate (expressions parameters) ++ "):" ++ "|".intercalate (alternatives result)

def expressions : List (List (List Atom)) → List String
  | [] => []
  | e :: r => "|".intercalate (alternatives e) :: expressions r

def alternatives : List (List Atom) → List String
  | [] => []
  | a :: r => "&".intercalate (parts a) :: alternatives r

def parts : List Atom → List String
  | [] => []
  | a :: r => a.text :: parts r

end

def part : Atom → Part
  | .name n => ⟨0, n⟩
  | .nullable a => ⟨a.part.marks + 1, a.part.name⟩
  | .generic n _ => ⟨0, n⟩
  | .signature n _ _ => ⟨0, n⟩

def opening : Atom → Option Char
  | .name _ => none
  | .nullable a => a.opening
  | .generic _ _ => some '<'
  | .signature _ _ _ => some '('

theorem opening_cases : ∀ a : Atom, a.opening = none ∨ a.opening = some '<' ∨ a.opening = some '('
  | .name _ => .inl rfl
  | .nullable a => a.opening_cases
  | .generic _ _ => .inr (.inl rfl)
  | .signature _ _ _ => .inr (.inr rfl)

theorem exists_text : ∀ a : Atom, ∃ rest, a.text = a.part.text ++ rest ∧ rest.toList.head? = a.opening
  | .name n => ⟨"", by simp [text, part, Part.text, opening]⟩
  | .nullable a => by
    obtain ⟨rest, whole, first⟩ := a.exists_text
    refine ⟨rest, ?_, first⟩
    rw [text, whole]
    simp [← String.toList_inj, part, Part.toList_text, List.replicate_succ]
  | .generic n arguments =>
    ⟨"<" ++ (",".intercalate (expressions arguments) ++ ">"), by simp [text, part, Part.text, String.append_assoc], by
      simp [opening]⟩
  | .signature n parameters result =>
    ⟨"(" ++ (",".intercalate (expressions parameters) ++ ("):" ++ "|".intercalate (alternatives result))), by
      simp [text, part, Part.text, String.append_assoc], by simp [opening]⟩

theorem parts_eq : ∀ a : List Atom, parts a = a.map text
  | [] => rfl
  | _ :: r => congrArg (_ :: ·) (parts_eq r)

theorem alternatives_eq : ∀ e : List (List Atom), alternatives e = e.map fun a => "&".intercalate (parts a)
  | [] => rfl
  | _ :: r => congrArg (_ :: ·) (alternatives_eq r)

end Atom

section

variable {α β : Type} (front : α → β) (opening : α → Option Char)

def upTo : List α → List β
  | [] => []
  | a :: r => front a :: if (opening a).isSome then [] else upTo r

theorem upTo_ne_nil {l : List α} (some : l ≠ []) : upTo front opening l ≠ [] := by
  obtain ⟨a, r, rfl⟩ := List.exists_cons_of_ne_nil some
  simp [upTo]

theorem exists_of_mem_upTo {l : List α} {b : β} (h : b ∈ upTo front opening l) : ∃ a ∈ l, front a = b := by
  induction l with
  | nil => cases h
  | cons a r ih =>
    rw [upTo] at h
    obtain rfl | later := List.mem_cons.1 h
    · exact ⟨a, List.mem_cons_self, rfl⟩
    · split at later
      · cases later
      · obtain ⟨d, hd, same⟩ := ih later
        exact ⟨d, List.mem_cons_of_mem a hd, same⟩

theorem exists_intercalate_upTo (text : α → String) (written : β → String)
    (parted : ∀ a, ∃ rest, text a = written (front a) ++ rest ∧ rest.toList.head? = opening a) (between : String)
    (l : List α) : ∃ rest, between.intercalate (l.map text) =
      between.intercalate ((upTo front opening l).map written) ++ rest ∧ rest.toList.head? = l.findSome? opening := by
  induction l with
  | nil => exact ⟨"", rfl, rfl⟩
  | cons a r ih =>
    obtain ⟨behind, whole, first⟩ := parted a
    obtain ⟨rest, further, next⟩ := ih
    cases r with
    | nil => exact ⟨behind, by simp [upTo, whole], by simp [first]⟩
    | cons b r =>
      have longer : between.intercalate ((a :: b :: r).map text) =
          written (front a) ++ (behind ++ (between ++ between.intercalate ((b :: r).map text))) := by
        simp [whole, String.intercalate_cons_cons, String.append_assoc]
      cases found : opening a with
      | some c =>
        rw [found] at first
        refine ⟨_, by simpa [upTo, found] using longer, ?_⟩
        simp [found, first]
      | none =>
        obtain rfl : behind = "" := by simpa [found] using first
        refine ⟨rest, ?_, by simpa [found] using next⟩
        have pieces : upTo front opening (a :: b :: r) = front a :: upTo front opening (b :: r) := by
          simp [upTo, found]
        obtain ⟨x, xs, later⟩ := List.exists_cons_of_ne_nil (upTo_ne_nil front opening (List.cons_ne_nil b r))
        rw [longer, further, pieces, later]
        simp [String.intercalate_cons_cons, String.append_assoc]

end

namespace TypeExpr

def text (e : TypeExpr) : String := "|".intercalate (Atom.alternatives e)

def erased (e : TypeExpr) : NativeType := e.map (List.map Atom.part)

def front (e : TypeExpr) : NativeType := upTo (upTo Atom.part Atom.opening) (List.findSome? Atom.opening) e

def opening (e : TypeExpr) : Option Char := e.findSome? (List.findSome? Atom.opening)

theorem exists_text (e : TypeExpr) : ∃ rest, e.text = e.front.text ++ rest ∧ rest.toList.head? = e.opening := by
  have alternative (a : List Atom) : ∃ rest, "&".intercalate (Atom.parts a) =
      "&".intercalate ((upTo Atom.part Atom.opening a).map Part.text) ++ rest ∧
      rest.toList.head? = a.findSome? Atom.opening := by
    rw [Atom.parts_eq]
    exact exists_intercalate_upTo _ _ Atom.text Part.text Atom.exists_text "&" a
  rw [text, Atom.alternatives_eq]
  exact exists_intercalate_upTo _ _ _ (fun a : List Part => "&".intercalate (a.map Part.text)) alternative "|" e

theorem opening_cases (e : TypeExpr) : e.opening = none ∨ e.opening = some '<' ∨ e.opening = some '(' := by
  cases found : e.opening with
  | none => exact .inl rfl
  | some c =>
    obtain ⟨a, -, found⟩ := List.exists_of_findSome?_eq_some found
    obtain ⟨b, -, found⟩ := List.exists_of_findSome?_eq_some found
    rw [← found]
    exact b.opening_cases

theorem of_opening {e : TypeExpr} {c : Char} (h : e.opening = some c) : Name.IsGap c ∧ Text.isBlank c = false := by
  obtain none | angle | round := e.opening_cases
  · rw [none] at h
    cases h
  · rw [angle] at h
    cases h
    decide
  · rw [round] at h
    cases h
    decide

theorem formed_front {e : TypeExpr} (h : e.erased.Formed) : e.front.Formed := by
  have filled : e ≠ [] := by simpa [erased] using h.filled
  refine ⟨upTo_ne_nil _ _ filled, fun a ha => ?_⟩
  obtain ⟨b, hb, rfl⟩ := exists_of_mem_upTo _ _ ha
  obtain ⟨some, named⟩ := h.part _ (List.mem_map_of_mem hb)
  refine ⟨upTo_ne_nil _ _ (by simpa using some), fun p hp => ?_⟩
  obtain ⟨d, hd, rfl⟩ := exists_of_mem_upTo _ _ hp
  exact named _ (List.mem_map_of_mem hd)

theorem exists_trim {e : TypeExpr} (h : e.erased.Formed) :
    ∃ rest, Text.trim Text.isBlank e.text = e.front.text ++ rest ∧ rest.toList.head? = e.opening := by
  obtain ⟨rest, whole, first⟩ := e.exists_text
  have dark : ∀ c ∈ rest.toList.head?, Text.isBlank c = false := fun c hc => (of_opening (first.symm.trans hc)).2
  obtain ⟨r, trimmed, same⟩ := Text.exists_trimBoth_append (fun c hc => (formed_front h).isBlank_of_mem hc) dark
  refine ⟨.ofList r, ?_, by rw [String.toList_ofList, same, first]⟩
  rw [Text.trim, whole, String.toList_append, trimmed]
  simp

theorem text_ne_empty {e : TypeExpr} (h : e.erased.Formed) : e.text ≠ "" := by
  obtain ⟨rest, whole, -⟩ := e.exists_text
  rw [whole]
  exact fun empty => (formed_front h).text_ne_empty (String.append_eq_empty_iff.1 empty).1

/-- Whether what is written of a type says all of it, where its names are written as `f` has them: there is a place for
what is written, the parts up to the first arguments have the values of the whole type, and null is added if asked
for. -/
structure Kept (f : String → String) (nullable : Bool) (e : TypeExpr) : Prop where
  unsigned : e.opening ≠ some '('
  sound : (e.front.rename f).Within (e.erased.rename f)
  complete : (e.erased.rename f).Within (e.front.rename f)
  null : NativeType.AcceptsNull (if nullable then (e.front.rename f).marked else e.front.rename f) ↔
    (e.erased.rename f).AcceptsNull ∨ nullable

instance (f : String → String) (nullable : Bool) (e : TypeExpr) : Decidable (e.Kept f nullable) :=
  decidable_of_iff (e.opening ≠ some '(' ∧ (e.front.rename f).Within (e.erased.rename f) ∧
      (e.erased.rename f).Within (e.front.rename f) ∧
      (NativeType.AcceptsNull (if nullable then (e.front.rename f).marked else e.front.rename f) ↔
        (e.erased.rename f).AcceptsNull ∨ nullable))
    ⟨fun ⟨unsigned, sound, complete, null⟩ => ⟨unsigned, sound, complete, null⟩,
      fun h => ⟨h.unsigned, h.sound, h.complete, h.null⟩⟩

theorem kept_of_front_eq {f : String → String} {nullable : Bool} {e : TypeExpr} (unsigned : e.opening ≠ some '(')
    (whole : e.front = e.erased)
    (null : nullable = true → (∃ p, e.front = [[p]]) ∨ (e.erased.rename f).AcceptsNull) : e.Kept f nullable := by
  refine ⟨unsigned, by rw [whole], by rw [whole], ?_⟩
  cases nullable with
  | false => simp [whole]
  | true =>
    simp only [if_true, or_true, iff_true]
    obtain ⟨p, single⟩ | accepts := null rfl
    · rw [single]
      exact NativeType.acceptsNull_marked_single _
    · rw [whole]
      exact accepts.marked

example : ¬ TypeExpr.Kept id true [[.name "A"], [.name "B"]] := by decide

end TypeExpr

theorem exists_simplified (ns : Namespace) {e : TypeExpr} (formed : e.erased.Formed) :
    ∃ rest, ns.shortenType (Text.trim Text.isBlank e.text) = (e.front.rename ns.shortenType).text ++ rest ∧
      rest.toList.head? = e.opening := by
  obtain ⟨rest, trimmed, first⟩ := TypeExpr.exists_trim formed
  have front : ns.shortenType e.front.text = (e.front.rename ns.shortenType).text := NativeType.mapNames_text _ _
  cases behind : rest.toList with
  | nil =>
    refine ⟨"", ?_, by rw [← first, behind]; rfl⟩
    rw [trimmed, String.toList_eq_nil_iff.1 behind, String.append_empty, front, String.append_empty]
  | cons c r =>
    have gap : Name.IsGap c := (TypeExpr.of_opening (first.symm.trans (by rw [behind]; rfl))).1
    have pieces : e.front.text ++ rest = .ofList (e.front.text.toList ++ c :: r) := by
      simp [← String.toList_inj, behind]
    refine ⟨.ofList (c :: (ns.shortenType (.ofList r)).toList), ?_, by rw [← first, behind, String.toList_ofList]; rfl⟩
    rw [trimmed, pieces, ← String.toList_inj, Namespace.shortenType, Name.mapNames_append_gap gap, String.ofList_toList]
    rw [Namespace.shortenType] at front
    rw [front]
    simp [Namespace.shortenType]

section

variable {t : NativeType} {rest : String} {nullable : Bool}

theorem mem_markNullable {c : Char} {plain : String} (h : c ∈ plain.toList) : c ∈ (markNullable plain).toList := by
  unfold markNullable
  split
  · exact h
  · simp [h]

theorem plain_writeType (formed : t.Formed) (cut : rest.toList.head? = none ∨ rest.toList.head? = some '<') :
    (writeType (t.text ++ rest) nullable).plain = NativeType.text (if nullable then t.marked else t) := by
  have mark : (if nullable then markNullable t.text else t.text) =
      NativeType.text (if nullable then t.marked else t) := by
    cases nullable
    · rfl
    · exact formed.markNullable_text
  have none : '<' ∉ t.text.toList := formed.not_mem (by decide) (by decide)
  cases behind : rest.toList with
  | nil =>
    have whole : t.text ++ rest = t.text := by rw [String.toList_eq_nil_iff.1 behind, String.append_empty]
    rw [whole, ← mark]
    simp [writeType, none]
  | cons c r =>
    obtain rfl : c = '<' := by simpa [behind] using cut
    have inside : '<' ∈ (t.text ++ rest).toList := by simp [behind]
    have front : (t.text ++ rest).toList.takeWhile (· ≠ '<') = t.text.toList := by
      rw [String.toList_append, behind, Text.takeWhile_ne_append none]
    have trimmed : Text.trim Text.isBlank t.text = t.text := Text.trim_of_forall fun d => formed.isBlank_of_mem
    simp only [writeType, List.contains_eq_mem, inside, decide_true, if_true, front, String.ofList_toList, trimmed,
      mark]

theorem mem_plain_writeType (formed : t.Formed) (round : rest.toList.head? = some '(') :
    '(' ∈ (writeType (t.text ++ rest) nullable).plain.toList := by
  have marked {plain : String} (h : '(' ∈ plain.toList) :
      '(' ∈ (if nullable then markNullable plain else plain).toList := by
    split
    · exact mem_markNullable h
    · exact h
  obtain ⟨r, behind⟩ := List.head?_eq_some_iff.1 round
  have none : '<' ∉ t.text.toList := formed.not_mem (by decide) (by decide)
  have inside : '(' ∈ (t.text ++ rest).toList := by simp [behind]
  have kept : '(' ∈ (t.text ++ rest).toList.takeWhile (· ≠ '<') := by
    rw [String.toList_append, behind, List.takeWhile_append_of_pos (Text.all_ne none),
      List.takeWhile_cons_of_pos (by decide)]
    exact List.mem_append_right _ List.mem_cons_self
  have dark : Text.isBlank '(' = false := by decide
  cases generic : (t.text ++ rest).toList.contains '<' with
  | true =>
    simp only [writeType, generic, if_true]
    exact marked (Text.mem_trim (by rwa [String.toList_ofList]) dark)
  | false =>
    simp only [writeType, generic, Bool.false_eq_true, if_false]
    exact marked inside

end

section

variable {scope : String} {uses : Table String} {elements : Roster Element} {e : TypeExpr}

/-- A type is written as one that has the values of the declared type, and null where it is nullable, just when what is
written of it says all of it. -/
theorem writeType?_admits_iff (aliases : ∀ a ∈ uses.values, IsTypeName a) (formed : e.erased.Formed)
    (nullable : Value) :
    let ns := Namespace.ofTexts scope uses elements
    ∃ w, writeType? ns (.text e.text) nullable = .ok (some w) ∧
      ((NativeType.ofText w.plain).Formed ∧
        (∀ (V : Type) (stands : String → V → Prop) (x : Option V), (NativeType.ofText w.plain).Admits stands x ↔
          (e.erased.rename ns.shortenType).Admits stands x ∨ nullable.truthy ∧ x = none) ↔
        e.Kept ns.shortenType nullable.truthy) := by
  intro ns
  obtain ⟨rest, simplified, first⟩ := exists_simplified ns formed
  have front : (e.front.rename ns.shortenType).Formed :=
    (TypeExpr.formed_front formed).rename fun n => isTypeName_shortenType aliases
  refine ⟨writeType ((e.front.rename ns.shortenType).text ++ rest) nullable.truthy, ?_, ?_⟩
  · rw [writeType?_ofTexts, if_neg (by simpa using TypeExpr.text_ne_empty formed), simplified]
  · by_cases round : e.opening = some '('
    · have inside : '(' ∈ (writeType ((e.front.rename ns.shortenType).text ++ rest) nullable.truthy).plain.toList :=
        mem_plain_writeType front (first.trans round)
      refine iff_of_false (fun ⟨read, _⟩ => ?_) fun kept => kept.unsigned round
      rw [← NativeType.text_ofText (writeType _ _).plain] at inside
      exact read.not_mem (by decide) (by decide) inside
    · have cut : rest.toList.head? = none ∨ rest.toList.head? = some '<' := by
        rw [first]
        have := e.opening_cases
        tauto
      have written : NativeType.Formed
          (if nullable.truthy then (e.front.rename ns.shortenType).marked else e.front.rename ns.shortenType) := by
        split
        · exact front.marked
        · exact front
      rw [plain_writeType front cut, written.ofText_text, NativeType.admits_iff, and_iff_right written,
        NativeType.within_iff, NativeType.within_iff]
      have same (V : Type) (stands : String → V → Prop) (v : V) : NativeType.Admits stands
          (if nullable.truthy then (e.front.rename ns.shortenType).marked else e.front.rename ns.shortenType) (some v) ↔
            (e.front.rename ns.shortenType).Admits stands (some v) := by
        split
        · exact NativeType.admits_marked
        · exact Iff.rfl
      simp only [same, ← NativeType.within_iff]
      exact ⟨fun ⟨sound, complete, null⟩ => ⟨round, sound, complete, null⟩, fun h => ⟨h.sound, h.complete, h.null⟩⟩

theorem writeType?_admits_list :
    let uses : Table String := ⟨[("App\\Models\\Item", "Item")]⟩
    let ns := Namespace.ofTexts "App" uses {}
    let e : TypeExpr := [[.generic "array" [[[.name "App\\Models\\Item"]]]]]
    (∀ a ∈ uses.values, IsTypeName a) ∧ e.erased.Formed ∧ e.Kept ns.shortenType true ∧
      ∃ w, writeType? ns (.text "array<App\\Models\\Item>") (.bool true) = .ok (some w) ∧
        ∀ (V : Type) (stands : String → V → Prop) (x : Option V), (NativeType.ofText w.plain).Admits stands x ↔
          (e.erased.rename ns.shortenType).Admits stands x ∨ true ∧ x = none := by
  intro uses ns e
  have aliases : ∀ a ∈ uses.values, IsTypeName a := by decide
  have formed : e.erased.Formed := by decide
  have kept : e.Kept ns.shortenType true := TypeExpr.kept_of_front_eq (by decide) rfl fun _ => .inl ⟨⟨0, "array"⟩, rfl⟩
  obtain ⟨w, written, means⟩ := @writeType?_admits_iff "App" uses {} e aliases formed (.bool true)
  exact ⟨aliases, formed, kept, w, written, (means.2 kept).2⟩

/-- What is behind the arguments is lost, here null. -/
theorem writeType?_lost :
    let ns := Namespace.ofTexts "App" {} {}
    let e : TypeExpr := [[.generic "array" [[[.name "int"]]]], [.name "null"]]
    e.text = "array<int>|null" ∧
      writeType? ns (.text "array<int>|null") (.bool false) = .ok (some ⟨"array", some "array<int>|null"⟩) ∧
      ∀ (V : Type) (stands : String → V → Prop), (e.erased.rename ns.shortenType).Admits stands none ∧
        ¬ (NativeType.ofText "array").Admits stands none := by
  intro ns e
  have erased : e.erased.rename ns.shortenType = [[⟨0, "array"⟩], [⟨0, "null"⟩]] := by cbv
  refine ⟨by decide, by cbv, fun V stands => ?_⟩
  rw [erased, NativeType.admits_none, NativeType.admits_none]
  decide

end

end PhpScaffold.Print
