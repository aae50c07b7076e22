import PhpScaffold.Blueprint
import PhpScaffold.Proofs.Import.Capture
import PhpScaffold.Proofs.Print.Type

namespace PhpScaffold

namespace Value

mutual

def classNames : Value → List String
  | .classReference name => [name]
  | .list vs => classNamesAll vs
  | .tuple vs => classNamesAll vs
  | .dict es => classNamesEntries es
  | _ => []

def classNamesAll : List Value → List String
  | [] => []
  | v :: r => classNames v ++ classNamesAll r

def classNamesEntries : List (Value × Value) → List String
  | [] => []
  | (k, v) :: r => classNames k ++ classNames v ++ classNamesEntries r

end

end Value

def Attribute.classNames (a : Attribute) : List String :=
  a.name.text?.toList ++ a.arguments.values.flatMap Value.classNames

def Annotations.classNames (a : Annotations) : List String := a.attributes.flatMap Attribute.classNames

def Method.attributed (m : Method) : List Annotations :=
  m.annotations :: m.parameters.values.map Parameter.annotations

def Method.types (m : Method) : List (Value × Value) :=
  m.parameters.values.map (fun p => (p.type, p.nullable)) ++ [(m.returnType, m.returnNullable)]

namespace Element

def attributed (e : Element) : List Annotations :=
  e.annotations :: e.cases.map EnumCase.annotations ++ e.constants.values.map Constant.annotations ++
    e.properties.map Property.annotations ++ e.methods.values.flatMap Method.attributed

def classNames (e : Element) : List String :=
  (e.parents ++ e.interfaces ++ e.traits).filterMap Value.text? ++ e.attributed.flatMap Annotations.classNames

def types (e : Element) : List (Value × Value) :=
  e.properties.map (fun p => (p.type, p.nullable)) ++ e.methods.values.flatMap Method.types

def typeMentions (type : Value × Value) : List String :=
  (type.1.text?.map fun s => Print.typeNames (Text.trim Text.isBlank s)).getD []

def mentions (e : Element) : List String := e.classNames ++ e.types.flatMap typeMentions

def writtenName (ns : Namespace) (name : String) : List String :=
  ((ns.shortName (.text name)).toOption.map Value.display).toList

def writtenType (ns : Namespace) (type : Value × Value) : List String :=
  ((Print.writeType? ns type.1 type.2).toOption.join.map Print.WrittenType.names).getD []

def written (ns : Namespace) (e : Element) : List String :=
  e.classNames.flatMap (writtenName ns) ++ e.types.flatMap (writtenType ns)

structure Proper (e : Element) : Prop where
  name : ∀ n ∈ e.classNames, Name.IsWhole n.toList
  type : ∀ t ∈ e.types, ∀ s, t.1 = .text s → Print.Neat (Text.trim Text.isBlank s)

variable {e : Element} {scope : String} {uses : Table String} {elements : Roster Element}

theorem Proper.isWhole (h : e.Proper) : ∀ n ∈ e.mentions, Name.IsWhole n.toList := by
  intro n hn
  obtain name | type := List.mem_append.1 hn
  · exact h.name n name
  · obtain ⟨⟨v, nullable⟩, -, mem⟩ := List.mem_flatMap.1 type
    cases v with
    | text s =>
      simp only [typeMentions, Value.text?, Option.map_some, Option.getD_some] at mem
      exact Name.isWhole_of_mem_names (Print.typeNames_subset _ mem)
    | _ => cases mem

section

variable (aliases : ∀ a ∈ uses.values, Name.IsIdentifier a.toList)

include aliases

theorem writtenType_ofTexts {type : Value × Value}
    (neat : ∀ s, type.1 = .text s → Print.Neat (Text.trim Text.isBlank s)) :
    writtenType (.ofTexts scope uses elements) type =
      (typeMentions type).map (Namespace.ofTexts scope uses elements).shorten := by
  obtain ⟨v, nullable⟩ := type
  cases text : v.text? with
  | none =>
    have unwritten : (Print.writeType? (.ofTexts scope uses elements) v nullable).toOption.join = none := by
      cases read : Print.writeType? (.ofTexts scope uses elements) v nullable with
      | error f => rfl
      | ok type =>
        rw [Print.writeType?_of_not_text text read]
        rfl
    simp [writtenType, typeMentions, unwritten, text]
  | some s =>
    obtain rfl : v = .text s := by cases v <;> cases text; rfl
    have whole : ∀ n ∈ Name.names (Text.trim Text.isBlank s),
        Name.IsWhole ((Namespace.ofTexts scope uses elements).shorten n).toList :=
      fun n hn => Namespace.isWhole_shorten aliases (Name.isWhole_of_mem_names hn)
    have names := Print.typeNames_mapNames (neat s rfl) whole
    simp only [writtenType, Print.writeType?_ofTexts, typeMentions, Value.text?, Option.map_some, Option.getD_some,
      ← names]
    by_cases empty : s.isEmpty
    · obtain rfl := String.isEmpty_iff.1 empty
      rw [names, show Text.trim Text.isBlank "" = "" from rfl, Print.typeNames_empty]
      rfl
    · simp only [empty, Bool.false_eq_true, if_false, Except.toOption, Option.join_some, Option.map_some,
        Option.getD_some, Print.names_writeType]
      rfl

theorem written_ofTexts (h : e.Proper) :
    e.written (.ofTexts scope uses elements) = e.mentions.map (Namespace.ofTexts scope uses elements).shorten := by
  have name (n : String) : writtenName (.ofTexts scope uses elements) n =
      [(Namespace.ofTexts scope uses elements).shorten n] := by
    simp [writtenName, Namespace.shortName_ofTexts, Except.toOption]
  rw [written, mentions, List.map_append, List.map_flatMap, List.flatMap_congr fun n _ => name n,
    List.flatMap_congr fun t ht => writtenType_ofTexts aliases (h.type t ht), List.map_eq_flatMap]

/-- Each name means with imports what it means without, unless it is spelled like the alias of another class. -/
theorem refers_written_iff (h : e.Proper) {elements' : Roster Element} :
    let ns := Namespace.ofTexts scope uses elements
    let bare := Namespace.ofTexts scope {} elements'
    (e.written ns).map ns.refers = (e.written bare).map bare.refers ↔
      ∀ n ∈ e.mentions, ∀ i, ns.capturing (ns.shorten n) = some i →
        Name.folded i.name = Name.folded (Name.denoted scope n) := by
  intro ns bare
  have segments : ∀ a ∈ uses.values, Name.IsSegment a := fun a ha => (aliases a ha).isSegment
  have none : ∀ a ∈ ({} : Table String).values, Name.IsIdentifier a.toList := by simp [Table.values]
  rw [written_ofTexts aliases h, written_ofTexts none h, List.map_map, List.map_map, List.map_inj_left]
  refine forall₂_congr fun n hn => ?_
  have whole := h.isWhole n hn
  rw [Function.comp_apply, Function.comp_apply, Namespace.refers_shorten segments whole,
    Namespace.refers_shorten (fun a ha => (none a ha).isSegment) whole, Namespace.capturing_ofTexts_empty]
  cases ns.capturing (ns.shorten n) <;> simp

end

end Element

end PhpScaffold
