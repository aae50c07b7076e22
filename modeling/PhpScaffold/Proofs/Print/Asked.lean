import PhpScaffold.Print.File
import PhpScaffold.Proofs.Print.Mention

namespace PhpScaffold

namespace Value

def typeNames (type : Value) : List String := (type.text?.map Name.names).getD []

end Value

def EnumCase.asked (c : EnumCase) : List String := c.annotations.classNames ++ c.value.classNames

def Constant.asked (c : Constant) : List String := c.annotations.classNames ++ c.value.classNames

def Property.asked (p : Property) : List String :=
  p.annotations.classNames ++ p.type.typeNames ++ p.value.toList.flatMap Value.classNames

def Parameter.asked (p : Parameter) : List String :=
  p.annotations.classNames ++ p.type.typeNames ++ p.default.toList.flatMap Value.classNames

def Method.asked (m : Method) : List String :=
  m.annotations.classNames ++ m.parameters.values.flatMap Parameter.asked ++ m.returnType.typeNames

def Element.asked (e : Element) : List String :=
  (e.parents ++ e.interfaces ++ e.traits).filterMap Value.text? ++ e.annotations.classNames ++
    e.cases.flatMap EnumCase.asked ++ e.constants.values.flatMap Constant.asked ++
    e.properties.flatMap Property.asked ++ e.methods.values.flatMap Method.asked

namespace Namespace

def Agree (ns ns' : Namespace) (names : List String) : Prop :=
  ∀ n ∈ names, ns.shortName (.text n) = ns'.shortName (.text n)

variable {ns ns' : Namespace} {names others : List String} {n : String}

theorem shortName_cases (ns : Namespace) (n : String) :
    (∃ v, ns.shortName (.text n) = .ok v ∧ v.display = ns.shorten n) ∨
      ∃ f, ns.shortName (.text n) = .error f ∧ ns.shorten n = "\\" ++ Name.relative n := by
  simp only [shortName, shorten]
  cases Name.isQualified n with
  | false => exact .inl ⟨n, rfl, Value.display_text n⟩
  | true =>
    cases ns.aliasOf? (Name.relative n) with
    | some aliasName => exact .inl ⟨aliasName, rfl, rfl⟩
    | none =>
      cases scope : ns.name with
      | text s => exact .inl ⟨_, rfl, Value.display_text _⟩
      | _ =>
        have outside : ns.member? (Name.relative n) = none := by simp [member?, inside?, scope]
        simp only [outside, Bool.not_true, Bool.false_eq_true, if_false]
        split
        · exact .inr ⟨_, rfl, trivial⟩
        · exact .inl ⟨_, rfl, Value.display_text _⟩

theorem display_of_shortName {v : Value} (h : ns.shortName (.text n) = .ok v) : v.display = ns.shorten n := by
  obtain ⟨w, made, shown⟩ | ⟨f, refused, -⟩ := ns.shortName_cases n
  · rw [h] at made
    cases made
    exact shown
  · rw [h] at refused
    cases refused

theorem shorten_congr (h : ns.shortName (.text n) = ns'.shortName (.text n)) : ns.shorten n = ns'.shorten n := by
  obtain ⟨v, made, shown⟩ | ⟨f, refused, full⟩ := ns.shortName_cases n
  · rw [← shown, display_of_shortName (h ▸ made)]
  · obtain ⟨v, made, -⟩ | ⟨-, -, full'⟩ := ns'.shortName_cases n
    · rw [← h, refused] at made
      cases made
    · rw [full, full']

@[simp] theorem agree_append : Agree ns ns' (names ++ others) ↔ Agree ns ns' names ∧ Agree ns ns' others :=
  List.forall_mem_append

@[simp] theorem agree_flatMap {α : Type} {l : List α} {f : α → List String} :
    Agree ns ns' (l.flatMap f) ↔ ∀ a ∈ l, Agree ns ns' (f a) := by
  simp only [Agree, List.mem_flatMap]
  exact ⟨fun h a ha n hn => h n ⟨a, ha, hn⟩, fun h n ⟨a, ha, hn⟩ => h a ha n hn⟩

theorem shortName_congr {v : Value} (h : Agree ns ns' v.text?.toList) : ns.shortName v = ns'.shortName v := by
  cases v with
  | text s => exact h s (by simp [Value.text?])
  | bytes b => cases b <;> rfl
  | _ => rfl

theorem shortPieces_congr {ts : List Name.Token} (h : Agree ns ns' (ts.filterMap Name.Token.name?))
    (between : List Char) : ns.shortPieces between ts = ns'.shortPieces between ts := by
  induction ts generalizing between with
  | nil => rfl
  | cons t r ih =>
    cases t with
    | other c => exact ih h (between ++ [c])
    | name n =>
      obtain ⟨first, rest⟩ := List.forall_mem_cons.1 (show ∀ m ∈ .ofList n :: r.filterMap Name.Token.name?, _ from h)
      rw [shortPieces, shortPieces, first, ih rest]

theorem shortenType_congr {s : String} (h : Agree ns ns' (Name.names s)) : ns.shortenType s = ns'.shortenType s := by
  rw [shortenType, shortenType, Name.mapNames_eq, Name.mapNames_eq]
  congr 2
  refine List.map_congr_left fun t ht => ?_
  cases t with
  | other c => rfl
  | name n =>
    have named : .ofList n ∈ Name.names s := List.mem_filterMap.2 ⟨_, ht, rfl⟩
    rw [Name.Token.map, Name.Token.map, shorten_congr (h _ named)]

end Namespace

namespace Print

open Namespace (Agree agree_append agree_flatMap shortName_congr)

variable {ns ns' : Namespace}

mutual

theorem value_congr : ∀ v : Value, Agree ns ns' v.classNames → value ns v = value ns' v
  | .classReference name, h => by
    rw [value, value, shortName_congr (v := .text name) h]
  | .list vs, h => by rw [value, value, values_congr vs h]
  | .tuple vs, h => by rw [value, value, values_congr vs h]
  | .dict es, h => by rw [value, value, entries_congr es h]
  | .null, _ => rfl
  | .bool _, _ => rfl
  | .int _, _ => rfl
  | .float _, _ => rfl
  | .text _, _ => rfl
  | .literal _, _ => rfl
  | .bytes _, _ => rfl
  | .set _, _ => rfl
  | .date _, _ => rfl
  | .moment _, _ => rfl
  | .again _, _ => rfl
  | .foreign _, _ => rfl

theorem values_congr : ∀ vs : List Value, Agree ns ns' (Value.classNamesAll vs) → values ns vs = values ns' vs
  | [], _ => rfl
  | v :: r, h => by
    obtain ⟨first, rest⟩ := agree_append.1 h
    rw [values, values, value_congr v first, values_congr r rest]

theorem entries_congr : ∀ es : List (Value × Value), Agree ns ns' (Value.classNamesEntries es) →
    entries ns es = entries ns' es
  | [], _ => rfl
  | (k, v) :: r, h => by
    rw [Value.classNamesEntries, agree_append, agree_append] at h
    obtain ⟨⟨key, item⟩, rest⟩ := h
    rw [entries, entries, value_congr k key, value_congr v item, entries_congr r rest]

end

theorem classNamesAll_eq (vs : List Value) : Value.classNamesAll vs = vs.flatMap Value.classNames := by
  induction vs with
  | nil => rfl
  | cons v r ih => rw [Value.classNamesAll, ih, List.flatMap_cons]

theorem typeText_congr {s : String} (h : Agree ns ns' (Name.names s)) : typeText ns s = typeText ns' s := by
  rw [typeText, typeText, Namespace.shortPieces_congr h, Namespace.shortenType_congr h]

theorem writeType?_congr {type : Value} (h : Agree ns ns' type.typeNames) (nullable : Value) :
    writeType? ns type nullable = writeType? ns' type nullable := by
  cases type with
  | text s =>
    have trimmed : typeText ns (Text.trim Text.isBlank s) = typeText ns' (Text.trim Text.isBlank s) := by
      apply typeText_congr
      rw [Name.names_trim fun c => Name.isGap_of_isBlank]
      exact h
    simp only [writeType?, trimmed]
  | bytes b => cases b <;> rfl
  | _ => rfl

theorem attr_congr {a : Attribute} (h : Agree ns ns' a.classNames) : attr ns a = attr ns' a := by
  rw [Attribute.classNames, agree_append, agree_flatMap] at h
  obtain ⟨name, arguments⟩ := h
  rw [attr, attr, shortName_congr name]
  cases given : a.arguments with
  | positional vs =>
    rw [given] at arguments
    have same : values ns vs = values ns' vs := values_congr vs (by rwa [classNamesAll_eq, agree_flatMap])
    simp only [same]
  | named es =>
    rw [given] at arguments
    have same : es.mapM (argument ns) = es.mapM (argument ns') := Except.mapM_congr fun e he => by
      rw [argument, argument, value_congr e.2 (arguments e.2 (List.mem_map_of_mem he))]
    simp only [same]

theorem mapM_attr_congr {a : Annotations} (h : Agree ns ns' a.classNames) :
    a.attributes.mapM (attr ns) = a.attributes.mapM (attr ns') :=
  Except.mapM_congr fun b hb => attr_congr (agree_flatMap.1 h b hb)

theorem header_congr {a : Annotations} (h : Agree ns ns' a.classNames) (doc : List String) :
    header ns doc a.attributes = header ns' doc a.attributes := by
  rw [header, header, mapM_attr_congr h]

theorem annotated_congr {a : Annotations} (h : Agree ns ns' a.classNames) : annotated ns a = annotated ns' a := by
  simp only [annotated, header_congr h]

theorem enumCase_congr {c : EnumCase} (h : Agree ns ns' c.asked) : enumCase ns c = enumCase ns' c := by
  obtain ⟨front, shown⟩ := agree_append.1 h
  have same := value_congr c.value shown
  rw [enumCase, enumCase, annotated_congr front]
  split
  · rfl
  · rw [same]

theorem constant_congr {c : Constant} (h : Agree ns ns' c.asked) : constant ns c = constant ns' c := by
  obtain ⟨front, shown⟩ := agree_append.1 h
  simp only [constant, annotated_congr front, value_congr c.value shown]

theorem property_congr {p : Property} (h : Agree ns ns' p.asked) : property ns p = property ns' p := by
  rw [Property.asked, agree_append, agree_append] at h
  obtain ⟨⟨front, type⟩, shown⟩ := h
  simp only [property, header_congr front, writeType?_congr type]
  cases given : p.value with
  | none => rfl
  | some v =>
    rw [given] at shown
    simp only [value_congr v (agree_flatMap.1 shown v (by simp))]

theorem parameter_congr {p : Parameter} (h : Agree ns ns' p.asked) : parameter ns p = parameter ns' p := by
  rw [Parameter.asked, agree_append, agree_append] at h
  obtain ⟨⟨front, type⟩, shown⟩ := h
  simp only [parameter, mapM_attr_congr front, writeType?_congr type]
  cases given : p.default with
  | none => rfl
  | some v =>
    rw [given] at shown
    simp only [value_congr v (agree_flatMap.1 shown v (by simp))]

theorem method_congr {m : Method} (h : Agree ns ns' m.asked) (bodyless : Bool) :
    method ns bodyless m = method ns' bodyless m := by
  rw [Method.asked, agree_append, agree_append] at h
  obtain ⟨⟨front, parameters⟩, type⟩ := h
  have written : m.parameters.values.mapM (parameter ns) = m.parameters.values.mapM (parameter ns') :=
    Except.mapM_congr fun p hp => parameter_congr (agree_flatMap.1 parameters p hp)
  simp only [method, header_congr front, written, writeType?_congr type]

theorem mapM_shortName_congr {vs : List Value} (h : Agree ns ns' (vs.filterMap Value.text?)) :
    vs.mapM ns.shortName = vs.mapM ns'.shortName :=
  Except.mapM_congr fun v hv => shortName_congr fun n hn => h n (List.mem_filterMap.2 ⟨v, hv, by simpa using hn⟩)

theorem element_congr {e : Element} (layout : Except Fault Layout) (h : Agree ns ns' e.asked) :
    element layout ns e = element layout ns' e := by
  simp only [Element.asked, List.filterMap_append, agree_append] at h
  obtain ⟨⟨⟨⟨⟨⟨⟨parents, interfaces⟩, traits⟩, front⟩, cases⟩, constants⟩, properties⟩, methods⟩ := h
  have used : (e.traits.mapM fun t => do return "use " ++ (← ns.shortName t).display ++ ";") =
      e.traits.mapM fun t => do return "use " ++ (← ns'.shortName t).display ++ ";" := by
    refine Except.mapM_congr fun t ht => ?_
    rw [shortName_congr fun n hn => traits n (List.mem_filterMap.2 ⟨t, ht, by simpa using hn⟩)]
  have listed : e.cases.mapM (enumCase ns) = e.cases.mapM (enumCase ns') :=
    Except.mapM_congr fun c hc => enumCase_congr (agree_flatMap.1 cases c hc)
  have fixed : e.constants.values.mapM (constant ns) = e.constants.values.mapM (constant ns') :=
    Except.mapM_congr fun c hc => constant_congr (agree_flatMap.1 constants c hc)
  have held : e.properties.mapM (property ns) = e.properties.mapM (property ns') :=
    Except.mapM_congr fun p hp => property_congr (agree_flatMap.1 properties p hp)
  have defined : e.methods.values.mapM (method ns (e.kind = .interface)) =
      e.methods.values.mapM (method ns' (e.kind = .interface)) :=
    Except.mapM_congr fun m hm => method_congr (agree_flatMap.1 methods m hm) _
  have sectioned : sections ns e = sections ns' e := by
    rw [sections, sections, used, listed, fixed, held, defined]
  have headed : elementHeader ns e = elementHeader ns' e := by
    simp only [elementHeader, mapM_shortName_congr parents, mapM_shortName_congr interfaces]
  rw [element, element, sectioned, mapM_attr_congr front, headed]

end Print

end PhpScaffold
