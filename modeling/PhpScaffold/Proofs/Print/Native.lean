import PhpScaffold.Print.Shorten
import PhpScaffold.Proofs.Import.Capture
import PhpScaffold.Proofs.Name.Expression
import PhpScaffold.Proofs.Text

/-! Native types.  A signature knows names, question marks, unions and intersections and nothing else; its type is a
union of intersections of names and is read back from its text.  Which values it admits depends on what the names stand
for, and two types admit the same whatever that is when each covers the other. -/

namespace PhpScaffold.Print

structure Part where
  marks : Nat
  name : String
  deriving DecidableEq

/-- The alternatives of a type, and the parts of each, which have to fit together. -/
abbrev NativeType := List (List Part)

def isSign (c : Char) : Bool := ['?', '|', '&', '<', '>', '(', ')', ',', ':'].contains c

def IsTypeName (n : String) : Prop := n ≠ "" ∧ ∀ c ∈ n.toList, isSign c = false ∧ Text.isBlank c = false

instance (n : String) : Decidable (IsTypeName n) := inferInstanceAs (Decidable (_ ∧ ∀ _ ∈ _, _))

namespace IsTypeName

variable {c : Char} {n : String}

theorem exists_cons (h : IsTypeName n) : ∃ c r, n.toList = c :: r ∧ isSign c = false ∧ Text.isBlank c = false := by
  obtain ⟨c, r, written⟩ := List.exists_cons_of_ne_nil (mt String.toList_eq_nil_iff.1 h.1)
  exact ⟨c, r, written, h.2 c (by simp [written])⟩

end IsTypeName

theorem isGap_of_isSign {c : Char} (h : isSign c = true) : Name.IsGap c := by
  have each : ∀ d ∈ ['?', '|', '&', '<', '>', '(', ')', ',', ':'], Name.IsGap d := by decide
  exact each c (List.contains_iff_mem.1 h)

theorem isTypeName_of_isWhole {n : String} (h : Name.IsWhole n.toList) : IsTypeName n := by
  refine ⟨?_, fun c hc => ⟨?_, ?_⟩⟩
  · rintro rfl
    exact absurd h (by decide)
  · exact Bool.eq_false_iff.2 fun sign => h.not_mem (isGap_of_isSign sign) hc
  · exact Bool.eq_false_iff.2 fun blank => h.not_mem (Name.isGap_of_isBlank blank) hc

theorem isTypeName_mapNames {f : String → String} {n : String} (h : IsTypeName n)
    (each : ∀ m ∈ Name.names n, IsTypeName (f m)) : IsTypeName (Name.mapNames f n) := by
  obtain ⟨c, r, written, -⟩ := h.exists_cons
  have pieces : ∀ x ∈ Name.tokens n.toList, IsTypeName (.ofList (Name.Token.text (Name.Token.map f x))) := by
    intro x mem
    cases x with
    | name t =>
      have named : .ofList t ∈ Name.names n := List.mem_filterMap.2 ⟨_, mem, rfl⟩
      simpa [Name.Token.map, Name.Token.text] using each _ named
    | other d => simpa [Name.Token.map, Name.Token.text, IsTypeName] using h.2 d (Name.mem_of_other_mem_tokens mem)
  rw [Name.mapNames_eq]
  constructor
  · intro empty
    rw [String.ofList_eq_empty_iff, List.flatMap_eq_nil_iff] at empty
    obtain ⟨x, xs, cut⟩ : ∃ x xs, Name.tokens n.toList = x :: xs := by
      apply List.exists_cons_of_ne_nil
      intro none
      have whole := Name.flatMap_text_tokens n.toList
      rw [none, written] at whole
      cases whole
    have first := empty (x.map f) (by simp [cut])
    exact (pieces x (by simp [cut])).1 (by rw [first])
  · intro d hd
    rw [String.toList_ofList, List.mem_flatMap] at hd
    obtain ⟨y, hy, inside⟩ := hd
    obtain ⟨x, hx, rfl⟩ := List.mem_map.1 hy
    exact (pieces x hx).2 d (by rwa [String.toList_ofList])

theorem isTypeName_shortenType {scope : String} {uses : Table String} {elements : Roster Element} {n : String}
    (aliases : ∀ a ∈ uses.values, IsTypeName a) (h : IsTypeName n) :
    IsTypeName ((Namespace.ofTexts scope uses elements).shortenType n) := by
  refine isTypeName_mapNames h fun m hm => ?_
  have whole : Name.IsWhole m.toList := Name.isWhole_of_mem_names hm
  exact (Namespace.mem_values_or_isWhole_shorten whole).elim (aliases _) isTypeName_of_isWhole

namespace Part

def text (p : Part) : String := .ofList (List.replicate p.marks '?') ++ p.name

def ofText (s : String) : Part := ⟨(s.toList.takeWhile (· = '?')).length, Text.trimStart (· = '?') s⟩

def rename (f : String → String) (p : Part) : Part := ⟨p.marks, f p.name⟩

variable {p : Part} {c : Char}

theorem toList_text (p : Part) : p.text.toList = List.replicate p.marks '?' ++ p.name.toList := by
  simp [text]

theorem text_ofText (s : String) : (ofText s).text = s := by
  have marks : List.replicate (s.toList.takeWhile (· = '?')).length '?' = s.toList.takeWhile (· = '?') :=
    (List.eq_replicate_of_mem fun c hc => by simpa using List.mem_takeWhile_imp hc).symm
  rw [← String.toList_inj, toList_text, ofText, marks, Text.trimStart, String.toList_ofList,
    List.takeWhile_append_dropWhile]

theorem ofText_text (h : IsTypeName p.name) : ofText p.text = p := by
  have all : ∀ c ∈ List.replicate p.marks '?', decide (c = '?') = true := by simp
  obtain ⟨c, r, written, sign, -⟩ := h.exists_cons
  have other : decide (c = '?') = false := by
    rw [decide_eq_false_iff_not]
    rintro rfl
    cases sign
  have behind : p.name.toList.takeWhile (· = '?') = [] ∧ p.name.toList.dropWhile (· = '?') = p.name.toList := by
    simp [written, other]
  rw [ofText, Text.trimStart, toList_text, List.takeWhile_append_of_pos all, List.dropWhile_append_of_pos all, behind.1,
    behind.2]
  simp

theorem of_mem_text (h : IsTypeName p.name) (hc : c ∈ p.text.toList) :
    c = '?' ∨ (isSign c = false ∧ Text.isBlank c = false) := by
  rw [toList_text, List.mem_append] at hc
  exact hc.imp List.eq_of_mem_replicate (h.2 c)

end Part

namespace NativeType

def text (t : NativeType) : String := "|".intercalate (t.map fun a => "&".intercalate (a.map Part.text))

def ofText (s : String) : NativeType := (Text.cut '|' s).map fun a => (Text.cut '&' a).map Part.ofText

/-- Whether the text of a type can be read in one way only. -/
structure Formed (t : NativeType) : Prop where
  filled : t ≠ []
  part : ∀ a ∈ t, a ≠ [] ∧ ∀ p ∈ a, IsTypeName p.name

def rename (f : String → String) (t : NativeType) : NativeType := t.map (List.map (Part.rename f))

instance (t : NativeType) : Decidable t.Formed :=
  decidable_of_iff (t ≠ [] ∧ ∀ a ∈ t, a ≠ [] ∧ ∀ p ∈ a, IsTypeName p.name) ⟨fun h => ⟨h.1, h.2⟩, fun h => ⟨h.1, h.2⟩⟩

variable {t : NativeType} {a : List Part} {c : Char} {s : String}

theorem text_ofText (s : String) : text (ofText s) = s := by
  have alternative : Function.LeftInverse (fun a => "&".intercalate (a.map Part.text))
      (fun a => (Text.cut '&' a).map Part.ofText) := by
    intro a
    have parts : Function.LeftInverse Part.text Part.ofText := Part.text_ofText
    simp only [parts.list_map (Text.cut '&' a)]
    exact Text.intercalate_cut_singleton '&' a
  rw [text, ofText, alternative.list_map]
  exact Text.intercalate_cut_singleton '|' s

theorem of_mem_alternative (named : ∀ p ∈ a, IsTypeName p.name) (hc : c ∈ ("&".intercalate (a.map Part.text)).toList) :
    c = '&' ∨ c = '?' ∨ (isSign c = false ∧ Text.isBlank c = false) := by
  obtain inside | ⟨u, part, inside⟩ := Text.mem_intercalate hc
  · exact .inl (List.mem_singleton.1 inside)
  · obtain ⟨p, hp, rfl⟩ := List.mem_map.1 part
    exact .inr (Part.of_mem_text (named p hp) inside)

namespace Formed

variable (h : t.Formed)

include h

theorem of_mem_text (hc : c ∈ t.text.toList) :
    c = '|' ∨ c = '&' ∨ c = '?' ∨ (isSign c = false ∧ Text.isBlank c = false) := by
  obtain inside | ⟨u, part, inside⟩ := Text.mem_intercalate hc
  · exact .inl (List.mem_singleton.1 inside)
  · obtain ⟨a, ha, rfl⟩ := List.mem_map.1 part
    exact .inr (of_mem_alternative (h.part a ha).2 inside)

theorem not_mem (sign : isSign c = true) (other : c ∉ ['|', '&', '?']) : c ∉ t.text.toList := by
  intro inside
  obtain rfl | rfl | rfl | ⟨plain, -⟩ := h.of_mem_text inside
  · simp at other
  · simp at other
  · simp at other
  · rw [plain] at sign
    cases sign

theorem isBlank_of_mem (hc : c ∈ t.text.toList) : Text.isBlank c = false := by
  obtain rfl | rfl | rfl | ⟨-, dark⟩ := h.of_mem_text hc
  · decide
  · decide
  · decide
  · exact dark

theorem ofText_text : ofText t.text = t := by
  have parts (a : List Part) (ha : a ∈ t) : (Text.cut '&' ("&".intercalate (a.map Part.text))).map Part.ofText = a := by
    obtain ⟨filled, named⟩ := h.part a ha
    have apart : ∀ u ∈ a.map Part.text, '&' ∉ u.toList := by
      intro u hu inside
      obtain ⟨p, hp, rfl⟩ := List.mem_map.1 hu
      obtain mark | ⟨sign, -⟩ := Part.of_mem_text (named p hp) inside
      · cases mark
      · cases sign
    have cut := Text.cut_intercalate (by simpa using filled) apart
    rw [show String.singleton '&' = "&" from rfl] at cut
    rw [cut, List.map_map]
    exact (List.map_congr_left fun p hp => Part.ofText_text (named p hp)).trans (List.map_id a)
  have apart : ∀ u ∈ t.map (fun a => "&".intercalate (a.map Part.text)), '|' ∉ u.toList := by
    intro u hu inside
    obtain ⟨a, ha, rfl⟩ := List.mem_map.1 hu
    obtain joint | mark | ⟨sign, -⟩ := of_mem_alternative (h.part a ha).2 inside
    · cases joint
    · cases mark
    · cases sign
  have cut := Text.cut_intercalate (by simpa using h.filled) apart
  rw [show String.singleton '|' = "|" from rfl] at cut
  rw [ofText, text, cut, List.map_map]
  exact (List.map_congr_left parts).trans (List.map_id t)

end Formed

theorem mapNames_text (f : String → String) (t : NativeType) :
    Name.mapNames f t.text = (t.rename (Name.mapNames f)).text := by
  have question : Name.IsGap '?' := by decide
  have part (p : Part) : Name.mapNames f p.text = (p.rename (Name.mapNames f)).text := by
    have marks : ∀ d ∈ List.replicate p.marks '?', Name.IsGap d := by
      intro d hd
      rwa [List.eq_of_mem_replicate hd]
    rw [← String.toList_inj, Part.toList_text, ← String.ofList_toList (s := p.text), Part.toList_text,
      Name.mapNames_gaps_append marks, String.ofList_toList]
    rfl
  have alternative (a : List Part) : Name.mapNames f ("&".intercalate (a.map Part.text)) =
      "&".intercalate ((a.map (Part.rename (Name.mapNames f))).map Part.text) := by
    refine (Name.mapNames_intercalate (c := '&') (by decide) _).trans ?_
    simp only [List.map_map, Function.comp_def, part]
    rfl
  refine (Name.mapNames_intercalate (c := '|') (by decide) _).trans ?_
  simp only [text, rename, List.map_map, Function.comp_def, alternative]
  rfl

theorem Formed.rename {f : String → String} (h : t.Formed) (named : ∀ n, IsTypeName n → IsTypeName (f n)) :
    (t.rename f).Formed := by
  refine ⟨by simpa [NativeType.rename] using h.filled, List.forall_mem_map.2 fun a ha => ?_⟩
  obtain ⟨filled, parts⟩ := h.part a ha
  exact ⟨by simpa using filled, List.forall_mem_map.2 fun p hp => named _ (parts p hp)⟩

def TakesMark (p : Part) (a : List Part) : Prop :=
  p.marks = 0 ∧ p :: a ≠ [⟨0, "mixed"⟩] ∧ p :: a ≠ [⟨0, "null"⟩]

instance (p : Part) (a : List Part) : Decidable (TakesMark p a) := inferInstanceAs (Decidable (_ ∧ _ ∧ _))

def marked : NativeType → NativeType
  | [p :: a] => if TakesMark p a then [⟨p.marks + 1, p.name⟩ :: a] else [p :: a]
  | t => t

theorem text_mark (p : Part) (a : List Part) : text [⟨p.marks + 1, p.name⟩ :: a] = "?" ++ text [p :: a] := by
  have front : Part.text ⟨p.marks + 1, p.name⟩ = "?" ++ p.text := by
    simp [← String.toList_inj, Part.toList_text, List.replicate_succ]
  cases a <;> simp [text, front, String.intercalate_cons_cons, String.append_assoc]

theorem head?_text {p : Part} (named : IsTypeName p.name) (a : List Part) :
    (text [p :: a]).toList.head? = some '?' ↔ p.marks ≠ 0 := by
  obtain ⟨c, r, written, sign, -⟩ := named.exists_cons
  have other : c ≠ '?' := by
    rintro rfl
    cases sign
  have front : ∃ u, (text [p :: a]).toList = List.replicate p.marks '?' ++ (c :: u) := by
    cases a <;> simp [text, String.intercalate_cons_cons, Part.toList_text, written]
  obtain ⟨u, front⟩ := front
  rw [front]
  cases p.marks <;> simp [List.replicate_succ, other]

theorem Formed.bar_mem (h : t.Formed) : '|' ∈ t.text.toList ↔ 2 ≤ t.length := by
  match t, h with
  | [], h => exact absurd rfl h.filled
  | [a], h =>
    have outside : '|' ∉ (text [a]).toList := by
      intro inside
      have alternative : text [a] = "&".intercalate (a.map Part.text) := String.intercalate_singleton
      rw [alternative] at inside
      obtain joint | mark | ⟨sign, -⟩ := of_mem_alternative (h.part a List.mem_cons_self).2 inside
      · cases joint
      · cases mark
      · cases sign
    simpa using outside
  | a :: b :: r, h => simp [text, String.intercalate_cons_cons]

theorem Formed.text_inj {u : NativeType} (h : t.Formed) (hu : u.Formed) : t.text = u.text ↔ t = u := by
  refine ⟨fun same => ?_, congrArg text⟩
  rw [← h.ofText_text, same, hu.ofText_text]

theorem Formed.text_ne_empty (h : t.Formed) : t.text ≠ "" := by
  intro empty
  have read := h.ofText_text
  rw [empty] at read
  exact absurd (read ▸ h) (show ¬ Formed (ofText "") by decide)

theorem Formed.markNullable_text (h : t.Formed) : markNullable t.text = t.marked.text := by
  have alone (n : String) (named : IsTypeName n) : t.text = n ↔ t = [[⟨0, n⟩]] := by
    have single : text [[⟨0, n⟩]] = n := by simp [text, Part.text]
    have formed : Formed [[⟨0, n⟩]] := ⟨by simp, by simpa using named⟩
    rw [← h.text_inj formed, single]
  unfold markNullable
  simp only [List.contains_eq_mem, h.bar_mem, alone "mixed" (by decide), alone "null" (by decide), Bool.or_eq_true,
    decide_eq_true_eq]
  match t, h with
  | [], h => exact absurd rfl h.filled
  | [[]], h => exact absurd rfl (h.part [] List.mem_cons_self).1
  | [p :: a], h =>
    have named : IsTypeName p.name := (h.part (p :: a) List.mem_cons_self).2 p List.mem_cons_self
    have takes : TakesMark p a ↔ ¬ ((((text [p :: a]).toList.head? = some '?' ∨ 2 ≤ [p :: a].length) ∨
        [p :: a] = [[⟨0, "mixed"⟩]]) ∨ [p :: a] = [[⟨0, "null"⟩]]) := by
      rw [head?_text named, TakesMark, List.length_singleton, List.singleton_inj, List.singleton_inj]
      have one : ¬ 2 ≤ 1 := by decide
      tauto
    by_cases takesMark : TakesMark p a
    · rw [if_neg (takes.1 takesMark), marked, if_pos takesMark, text_mark]
    · rw [if_pos (not_not.1 (mt takes.2 takesMark)), marked, if_neg takesMark]
  | a :: b :: r, h => simp [marked]

theorem Formed.marked (h : t.Formed) : t.marked.Formed := by
  match t, h with
  | [], h => exact h
  | [[]], h => exact h
  | [p :: a], h =>
    have part := List.forall_mem_cons.1 (h.part (p :: a) List.mem_cons_self).2
    rw [NativeType.marked]
    split
    · exact ⟨by simp, by simpa using part⟩
    · exact h
  | _ :: _ :: _, h => simpa [NativeType.marked] using h

end NativeType

section

variable {V : Type}

namespace Part

def IsMixed (p : Part) : Prop := Name.folded p.name = "mixed"

def IsNull (p : Part) : Prop := Name.folded p.name = "null"

def AcceptsNull (p : Part) : Prop := p.marks ≠ 0 ∨ p.IsMixed ∨ p.IsNull

/-- The values of a part, given those of each other name.  Null is `none`. -/
def Admits (stands : String → V → Prop) (p : Part) : Option V → Prop
  | none => p.AcceptsNull
  | some v => p.IsMixed ∨ ¬ p.IsNull ∧ stands (Name.folded p.name) v

instance (p : Part) : Decidable p.IsMixed := inferInstanceAs (Decidable (_ = _))

instance (p : Part) : Decidable p.IsNull := inferInstanceAs (Decidable (_ = _))

instance (p : Part) : Decidable p.AcceptsNull := inferInstanceAs (Decidable (_ ∨ _ ∨ _))

end Part

namespace NativeType

variable {t u : NativeType}

def AcceptsNull (t : NativeType) : Prop := ∃ a ∈ t, ∀ p ∈ a, p.AcceptsNull

def Admits (stands : String → V → Prop) (t : NativeType) (x : Option V) : Prop := ∃ a ∈ t, ∀ p ∈ a, p.Admits stands x

@[simp] theorem admits_none {stands : String → V → Prop} : t.Admits stands none ↔ t.AcceptsNull := Iff.rfl

/-- Whether each alternative that has values besides null asks for all that some alternative of the other type does. -/
def Within (t u : NativeType) : Prop :=
  ∀ a ∈ t, (∀ p ∈ a, ¬ p.IsNull) →
    ∃ b ∈ u, ∀ q ∈ b, q.IsMixed ∨ ¬ q.IsNull ∧ ∃ p ∈ a, Name.folded p.name = Name.folded q.name

instance (t : NativeType) : Decidable t.AcceptsNull := inferInstanceAs (Decidable (∃ _ ∈ _, ∀ _ ∈ _, _))

instance (t u : NativeType) : Decidable (t.Within u) :=
  inferInstanceAs (Decidable (∀ a ∈ t, (∀ p ∈ a, _) → ∃ _ ∈ u, ∀ _ ∈ _, _))

theorem within_iff :
    t.Within u ↔ ∀ (V : Type) (stands : String → V → Prop) (v : V),
      t.Admits stands (some v) → u.Admits stands (some v) := by
  constructor
  · rintro within V stands v ⟨a, ha, fits⟩
    have named (p : Part) (hp : p ∈ a) : ¬ p.IsNull := by
      intro null
      obtain mixed | ⟨named, -⟩ := fits p hp
      · exact absurd (mixed.symm.trans null) (by decide)
      · exact named null
    obtain ⟨b, hb, asks⟩ := within a ha named
    refine ⟨b, hb, fun q hq => ?_⟩
    obtain mixed | ⟨other, p, hp, same⟩ := asks q hq
    · exact .inl mixed
    · exact (fits p hp).imp same.symm.trans fun ⟨_, held⟩ => ⟨other, same ▸ held⟩
  · intro kept a ha named
    have fits : t.Admits (fun n (_ : Unit) => ∃ p ∈ a, Name.folded p.name = n) (some ()) :=
      ⟨a, ha, fun p hp => .inr ⟨named p hp, p, hp, rfl⟩⟩
    exact kept Unit _ () fits

theorem admits_marked {stands : String → V → Prop} {v : V} :
    t.marked.Admits stands (some v) ↔ t.Admits stands (some v) := by
  match t with
  | [] => exact Iff.rfl
  | [[]] => exact Iff.rfl
  | [p :: a] =>
    rw [marked]
    split
    · simp only [Admits, List.mem_singleton, exists_eq_left, List.forall_mem_cons]
      exact Iff.rfl
    · exact Iff.rfl
  | a :: b :: r => simp [marked]

@[refl]
theorem Within.refl (t : NativeType) : t.Within t :=
  fun a ha named => ⟨a, ha, fun p hp => .inr ⟨named p hp, p, hp, rfl⟩⟩

theorem AcceptsNull.marked (h : t.AcceptsNull) : t.marked.AcceptsNull := by
  match t, h with
  | [p :: a], ⟨_, ha, fits⟩ =>
    obtain rfl := List.mem_singleton.1 ha
    obtain ⟨-, rest⟩ := List.forall_mem_cons.1 fits
    rw [NativeType.marked]
    split
    · exact ⟨_, List.mem_singleton_self _, List.forall_mem_cons.2 ⟨.inl (Nat.succ_ne_zero _), rest⟩⟩
    · exact ⟨_, List.mem_singleton_self _, fits⟩
  | [[]], h => exact h
  | _ :: _ :: _, h => simpa [NativeType.marked] using h

theorem acceptsNull_marked_single (p : Part) : AcceptsNull (marked [[p]]) := by
  have single {q : Part} (h : q.AcceptsNull) : AcceptsNull [[q]] := ⟨[q], List.mem_singleton_self _, by simpa using h⟩
  rw [marked]
  split
  · exact single (.inl (Nat.succ_ne_zero _))
  · rename_i unmarked
    apply single
    by_contra refuses
    obtain ⟨zero, mixed, null⟩ : p.marks = 0 ∧ ¬ p.IsMixed ∧ ¬ p.IsNull := by simpa [Part.AcceptsNull] using refuses
    refine unmarked ⟨zero, fun same => mixed ?_, fun same => null ?_⟩ <;> rw [List.singleton_inj.1 same] <;> rfl

theorem admits_iff {nullable : Prop} :
    (∀ (V : Type) (stands : String → V → Prop) (x : Option V),
      t.Admits stands x ↔ u.Admits stands x ∨ nullable ∧ x = none) ↔
    t.Within u ∧ u.Within t ∧ (t.AcceptsNull ↔ u.AcceptsNull ∨ nullable) := by
  constructor
  · intro same
    refine ⟨within_iff.2 fun V stands v ht => ?_, within_iff.2 fun V stands v hu => ?_, ?_⟩
    · obtain hu | ⟨-, null⟩ := (same V stands (some v)).1 ht
      · exact hu
      · cases null
    · exact (same V stands (some v)).2 (.inl hu)
    · simpa using same Unit (fun _ _ => True) none
  · rintro ⟨forth, back, null⟩ V stands x
    cases x with
    | none => simpa using null
    | some v => simpa using ⟨within_iff.1 forth V stands v, within_iff.1 back V stands v⟩

end NativeType

end

end PhpScaffold.Print
