import PhpScaffold.Proofs.Name.Full
import PhpScaffold.Proofs.Print.Type

namespace PhpScaffold.Name

structure ClassName where
  absolute : Bool
  segments : List String
  filled : segments ≠ []
  identifiers : ∀ s ∈ segments, IsIdentifier s.toList

namespace ClassName

def full (n : ClassName) : String := ofSegments n.segments

def text (n : ClassName) : String := if n.absolute then "\\" ++ n.full else n.full

def qualified (n : ClassName) : Bool := 2 ≤ n.segments.length

variable (n : ClassName)

theorem text_cases : n.text = n.full ∨ n.text = "\\" ++ n.full := by
  unfold text
  split
  · exact .inr rfl
  · exact .inl rfl

theorem isWhole_full : IsWhole n.full.toList := isWhole_ofSegments n.filled n.identifiers

theorem isWhole_text : IsWhole n.text.toList := by
  obtain ⟨c, r, head, tail, written⟩ := n.isWhole_full.exists_tail
  have first : n.full.toList = c :: r := by
    obtain plain | absolute := written
    · exact plain
    · obtain ⟨s, t, filled⟩ := List.exists_cons_of_ne_nil n.filled
      obtain ⟨d, u, front, other⟩ := (n.identifiers s (by simp [filled])).isSegment.exists_cons
      rw [full, filled, toList_ofSegments, front] at absolute
      exact absurd (List.cons.inj absolute).1 other
  obtain same | same := n.text_cases
  · rw [same]
    exact n.isWhole_full
  · rw [same, String.toList_append, first]
    exact (isWhole_of_tail head tail).2

theorem spells (several : 2 ≤ n.segments.length) : Spells n.segments n.text :=
  ⟨several, fun s hs => (n.identifiers s hs).isSegment, n.text_cases⟩

theorem isQualified_text : isQualified n.text = n.qualified := by
  by_cases several : 2 ≤ n.segments.length
  · rw [(n.spells several).isQualified_eq, qualified, decide_eq_true several]
  · obtain ⟨s, t, filled⟩ := List.exists_cons_of_ne_nil n.filled
    obtain rfl : t = [] := by
      cases t with
      | nil => rfl
      | cons u t => simp [filled] at several
    have alone : n.full = s := by rw [full, filled, ofSegments, String.intercalate_singleton]
    have segment := (n.identifiers s (by simp [filled])).isSegment
    rw [qualified, decide_eq_false several]
    obtain same | same := n.text_cases
    · rw [same, alone, segment.isQualified_eq_false]
    · rw [same, alone, segment.isQualified_absolute_eq_false]

theorem relative_text (h : n.qualified) : relative n.text = n.full :=
  (n.spells (of_decide_eq_true h)).relative_eq

end ClassName

/-- A type expression.  After a name comes a mark or nothing. -/
inductive Composite
  | empty
  | last (n : ClassName)
  | mark (c : Char) (gap : IsGap c) (rest : Composite)
  | name (n : ClassName) (c : Char) (gap : IsGap c) (rest : Composite)

example : ∀ c ∈ "?|&<>(),:[] ".toList, IsGap c := by decide

namespace Composite

def write (f : ClassName → String) : Composite → String
  | empty => ""
  | last n => f n
  | mark c _ r => .singleton c ++ r.write f
  | name n c _ r => f n ++ .singleton c ++ r.write f

def text : Composite → String := write ClassName.text

def names : Composite → List ClassName
  | empty => []
  | last n => [n]
  | mark _ _ r => r.names
  | name n _ _ r => n :: r.names

def tokens : Composite → List Token
  | empty => []
  | last n => [.name n.text.toList]
  | mark c _ r => .other c :: r.tokens
  | name n c _ r => .name n.text.toList :: .other c :: r.tokens

theorem tokens_text (e : Composite) : Name.tokens e.text.toList = e.tokens := by
  unfold text
  induction e with
  | empty => exact tokens_nil
  | last n => rw [write, tokens_of_takeName? n.isWhole_text, tokens_nil, tokens]
  | mark c gap r ih =>
    have cut := tokens_append_gap gap [] (r.write ClassName.text).toList
    rw [ih, tokens_nil] at cut
    simpa [write, tokens] using cut
  | name n c gap r ih =>
    have cut := tokens_append_gap gap n.text.toList (r.write ClassName.text).toList
    rw [ih, tokens_of_takeName? n.isWhole_text, tokens_nil] at cut
    simpa [write, tokens] using cut

theorem filterMap_tokens (e : Composite) : e.tokens.filterMap Token.name? = e.names.map ClassName.text := by
  induction e with
  | empty => rfl
  | last n => simp [tokens, names, Token.name?]
  | mark c _ r ih => rw [tokens, List.filterMap_cons_none rfl, ih, names]
  | name n c _ r ih =>
    have found : Token.name? (.name n.text.toList) = some n.text := by simp [Token.name?]
    rw [tokens, List.filterMap_cons_some found, List.filterMap_cons_none rfl, ih, names, List.map_cons]

theorem flatMap_tokens (f : String → String) (e : Composite) :
    (e.tokens.map (Token.map f)).flatMap Token.text = (e.write fun n => f n.text).toList := by
  induction e with
  | empty => rfl
  | last n => simp [tokens, write, Token.map, Token.text]
  | mark c _ r ih => simpa [tokens, write, Token.map, Token.text] using ih
  | name n c _ r ih => simpa [tokens, write, Token.map, Token.text] using ih

theorem names_text (e : Composite) : Name.names e.text = e.names.map ClassName.text := by
  rw [names_eq, tokens_text, filterMap_tokens]

theorem mapNames_text (f : String → String) (e : Composite) :
    mapNames f e.text = e.write fun n => f n.text := by
  rw [mapNames_eq, tokens_text, flatMap_tokens, String.ofList_toList]

theorem qualifiedNames_text (e : Composite) :
    qualifiedNames e.text = (e.names.filter ClassName.qualified).map ClassName.full := by
  rw [qualifiedNames, names_text, List.filter_map, List.map_map]
  rw [show isQualified ∘ ClassName.text = ClassName.qualified from funext ClassName.isQualified_text]
  exact List.map_congr_left fun n found => n.relative_text (List.mem_filter.1 found).2

/-- The scan of a type expression finds its names, each whole and in order, and nothing else; those with a scope are
collected without the backslash in front; and the expression is written with each name shortened in its place, in every
namespace. -/
theorem found_and_shortened (e : Composite) :
    Name.tokens e.text.toList = e.tokens ∧ Name.names e.text = e.names.map ClassName.text ∧
      qualifiedNames e.text = (e.names.filter ClassName.qualified).map ClassName.full ∧
      (∀ ns : Namespace, ns.shortenType e.text = e.write fun n => ns.shorten n.text) ∧
      ∀ scope uses elements, Print.typeText (.ofTexts scope uses elements) e.text =
        .ok (e.write fun n => (Namespace.ofTexts scope uses elements).shorten n.text) := by
  refine ⟨e.tokens_text, e.names_text, e.qualifiedNames_text, fun ns => e.mapNames_text ns.shorten, ?_⟩
  intro scope uses elements
  rw [Print.typeText_ofTexts]
  exact congrArg Except.ok (e.mapNames_text _)

example :
    let a : ClassName := ⟨false, ["Ns", "A"], by decide, by decide⟩
    let generic : ClassName := ⟨false, ["array"], by decide, by decide⟩
    let c : ClassName := ⟨true, ["Ns", "C"], by decide, by decide⟩
    let e := mark '?' (by decide) (name a '|' (by decide) (name generic '<' (by decide) (name c '>' (by decide) empty)))
    e.text = "?Ns\\A|array<\\Ns\\C>" ∧ (e.names.map ClassName.full) = ["Ns\\A", "array", "Ns\\C"] ∧
      Name.names e.text = ["Ns\\A", "array", "\\Ns\\C"] ∧ qualifiedNames e.text = ["Ns\\A", "Ns\\C"] := by
  decide +kernel

end Composite

end PhpScaffold.Name
