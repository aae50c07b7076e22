import PhpScaffold.Proofs.Dependencies
import PhpScaffold.Proofs.Print.Shown

namespace PhpScaffold

def Parted {α : Type} (l a b : List α) : Prop := ∀ x, x ∈ l ↔ x ∈ a ∨ x ∈ b

namespace Parted

variable {α β : Type} {l l' a a' b b' : List α}

theorem left (l : List α) : Parted l l [] := fun x => by simp

theorem right (l : List α) : Parted l [] l := fun x => by simp

theorem append (h : Parted l a b) (h' : Parted l' a' b') : Parted (l ++ l') (a ++ a') (b ++ b') := fun x => by
  rw [List.mem_append, List.mem_append, List.mem_append, h x, h' x, or_or_or_comm]

theorem append_left (h : Parted l a b) (more : List α) : Parted (l ++ more) (a ++ more) b := by
  simpa only [List.append_nil] using h.append (left more)

theorem append_right (h : Parted l a b) (more : List α) : Parted (l ++ more) a (b ++ more) := by
  simpa only [List.append_nil] using h.append (right more)

theorem flatMap {ys : List β} {f g k : β → List α} (h : ∀ y ∈ ys, Parted (f y) (g y) (k y)) :
    Parted (ys.flatMap f) (ys.flatMap g) (ys.flatMap k) := by
  induction ys with
  | nil => exact left []
  | cons y r ih =>
    obtain ⟨first, rest⟩ := List.forall_mem_cons.1 h
    exact first.append (ih rest)

theorem congr (h : Parted l a b) (same : ∀ x, x ∈ a ↔ x ∈ a') : Parted l a' b :=
  fun x => (h x).trans (or_congr_left (same x))

end Parted

namespace Name

variable {n : String} {names : List String}

def qualifiedAmong (names : List String) : List String := (names.filter isQualified).map relative

theorem mem_qualifiedAmong : n ∈ qualifiedAmong names ↔ ∃ m ∈ names, isQualified m = true ∧ relative m = n := by
  simp [qualifiedAmong, and_assoc]

end Name

namespace Value

def passedOver : Value → List String
  | .classReference _ => []
  | v => v.classNames

theorem typeNames_eq {v : Value} (whole : ∀ n ∈ v.text?.toList, Name.names n = [n]) : v.typeNames = v.text?.toList := by
  cases v with
  | text s => exact whole s List.mem_cons_self
  | _ => rfl

end Value

def Attribute.passedOver (a : Attribute) : List String := a.arguments.values.flatMap Value.passedOver

def Annotations.passedOver (a : Annotations) : List String := a.attributes.flatMap Attribute.passedOver

def Parameter.passedOver (p : Parameter) : List String :=
  p.annotations.passedOver ++ p.default.toList.flatMap Value.classNames

def Method.passedOver (m : Method) : List String :=
  m.annotations.passedOver ++ m.parameters.values.flatMap Parameter.passedOver

def Property.passedOver (p : Property) : List String :=
  p.annotations.passedOver ++ p.value.toList.flatMap Value.classNames

/-- The names that are not looked for among dependencies: those that come with a case or a constant, those in a value,
and those inside an argument of an attribute. -/
def Element.passedOver (e : Element) : List String :=
  e.annotations.passedOver ++ e.cases.flatMap EnumCase.asked ++ e.constants.values.flatMap Constant.asked ++
    e.properties.flatMap Property.passedOver ++ e.methods.values.flatMap Method.passedOver

theorem Attribute.parted {a : Attribute} (whole : ∀ n ∈ a.classNames, Name.names n = [n]) :
    Parted a.classNames (a.references.flatMap Value.typeNames) a.passedOver := by
  obtain ⟨name, arguments⟩ := List.forall_mem_append.1 whole
  rw [references, List.flatMap_cons, Value.typeNames_eq name, List.filterMap_eq_flatMap_toList, List.flatMap_assoc]
  refine (Parted.left _).append (Parted.flatMap fun v hv => ?_)
  cases v with
  | classReference n =>
    have own : Name.names n = [n] := arguments n (List.mem_flatMap.2 ⟨_, hv, List.mem_cons_self⟩)
    show Parted [n] ([Value.text n].flatMap Value.typeNames) []
    rw [List.flatMap_singleton, Value.typeNames_eq fun m hm => by rwa [List.mem_singleton.1 hm]]
    exact .left _
  | _ => exact .right _

theorem Annotations.parted {a : Annotations} (whole : ∀ n ∈ a.classNames, Name.names n = [n]) :
    Parted a.classNames (a.references.flatMap Value.typeNames) a.passedOver := by
  rw [references, List.flatMap_assoc]
  exact .flatMap fun b hb => Attribute.parted fun n hn => whole n (List.mem_flatMap.2 ⟨b, hb, hn⟩)

theorem Parameter.parted {p : Parameter} (whole : ∀ n ∈ p.asked, Name.names n = [n]) :
    Parted p.asked ((p.type :: p.annotations.references).flatMap Value.typeNames) p.passedOver := by
  obtain ⟨names, -⟩ := List.forall_mem_append.1 (List.forall_mem_append.1 whole).1
  refine (((Annotations.parted names).append_left p.type.typeNames).append_right _).congr fun n => ?_
  rw [List.flatMap_cons, List.mem_append, List.mem_append, or_comm]

theorem Property.parted {p : Property} (whole : ∀ n ∈ p.asked, Name.names n = [n]) :
    Parted p.asked (p.references.flatMap Value.typeNames) p.passedOver := by
  obtain ⟨names, -⟩ := List.forall_mem_append.1 (List.forall_mem_append.1 whole).1
  refine (((Annotations.parted names).append_left p.type.typeNames).append_right _).congr fun n => ?_
  rw [Property.references, List.flatMap_cons, List.mem_append, List.mem_append, or_comm]

theorem Method.parted {m : Method} (whole : ∀ n ∈ m.asked, Name.names n = [n]) :
    Parted m.asked (m.references.flatMap Value.typeNames) m.passedOver := by
  obtain ⟨names, parameters⟩ := List.forall_mem_append.1 (List.forall_mem_append.1 whole).1
  have each : ∀ p ∈ m.parameters.values, Parted p.asked _ p.passedOver :=
    fun p hp => Parameter.parted fun n hn => parameters n (List.mem_flatMap.2 ⟨p, hp, hn⟩)
  refine (((Annotations.parted names).append (.flatMap each)).append_left m.returnType.typeNames).congr fun n => ?_
  simp only [Method.references, List.flatMap_append, List.flatMap_cons, List.flatMap_nil, List.flatMap_map,
    List.flatMap_assoc, List.append_nil, List.mem_append, List.mem_flatMap, and_or_left, exists_or]
  simp only [or_assoc, or_comm, or_left_comm]

namespace Element

variable {e : Element} {n : String}

theorem parted (whole : ∀ n ∈ e.asked, Name.names n = [n]) :
    Parted e.asked (e.references.flatMap Value.typeNames) e.passedOver := by
  simp only [asked, List.forall_mem_append] at whole
  obtain ⟨⟨⟨⟨⟨supertypes, names⟩, -⟩, -⟩, properties⟩, methods⟩ := whole
  have each : ∀ v ∈ e.parents ++ e.interfaces ++ e.traits, v.typeNames = v.text?.toList := fun v hv =>
    Value.typeNames_eq fun n hn => supertypes n (List.mem_filterMap.2 ⟨v, hv, Option.mem_toList.1 hn⟩)
  have first : Parted ((e.parents ++ e.interfaces ++ e.traits).filterMap Value.text?)
      ((e.parents ++ e.interfaces ++ e.traits).flatMap Value.typeNames) [] := by
    rw [List.filterMap_eq_flatMap_toList, List.flatMap_congr each]
    exact .left _
  have held : ∀ p ∈ e.properties, Parted p.asked _ p.passedOver :=
    fun p hp => Property.parted fun n hn => properties n (List.mem_flatMap.2 ⟨p, hp, hn⟩)
  have defined : ∀ m ∈ e.methods.values, Parted m.asked _ m.passedOver :=
    fun m hm => Method.parted fun n hn => methods n (List.mem_flatMap.2 ⟨m, hm, hn⟩)
  refine (((((first.append (Annotations.parted names)).append_right _).append_right _).append (.flatMap held)).append
    (.flatMap defined)).congr fun n => ?_
  simp only [references, List.flatMap_append, List.flatMap_assoc, List.mem_append]
  simp only [or_assoc, or_comm, or_left_comm]

/-- Whether the printed text depends on how a class is written.  The name is given without a backslash in front. -/
def Shortens (e : Element) (n : String) : Prop :=
  ∃ ns ns' : Namespace, (∀ m, Name.relative m ≠ n → ns.shortName (.text m) = ns'.shortName (.text m)) ∧
    Print.element (.ok Template.elementLayout) ns e ≠ Print.element (.ok Template.elementLayout) ns' e

def IsPrintable (e : Element) : Prop := ∃ t, Print.element (.ok Template.elementLayout) { name := "" } e = .ok t

theorem mem_of_shortens (h : e.Shortens n) : n ∈ Name.qualifiedAmong e.asked := by
  obtain ⟨ns, ns', alike, differ⟩ := h
  by_contra unasked
  refine differ (Print.element_congr _ fun m hm => ?_)
  by_cases same : Name.relative m = n
  · have plain : Name.isQualified m = false := by
      rw [← Bool.not_eq_true]
      exact fun qualified => unasked (Name.mem_qualifiedAmong.2 ⟨m, hm, qualified, same⟩)
    simp only [Namespace.shortName, plain, Bool.not_false, if_true]
  · exact alike m same

def importing (n : String) (length : Nat) : Namespace :=
  { name := "", uses := ⟨[(n, .text (.ofList (.replicate length 'a')))]⟩ }

theorem importing_shortName {n k : String} (other : Name.relative k ≠ n) (length : Nat) :
    (importing n length).shortName (.text k) = Namespace.shortName { name := "" } (.text k) := by
  have apart : (Name.relative k == n) = false := beq_false_of_ne other
  have unknown : (importing n length).aliasOf? (Name.relative k) = none := by
    simp [importing, Namespace.aliasOf?, Table.get?, List.lookup_cons, apart]
  have outside (full : String) : (importing n length).member? full = none := rfl
  simp only [Namespace.shortName, Namespace.shorten, unknown, outside]
  rfl

theorem importing_shorten {n m : String} {length : Nat} (qualified : Name.isQualified m = true)
    (same : Name.relative m = n) (filled : length ≠ 0) :
    (importing n length).shorten m = .ofList (.replicate length 'a') := by
  have known : (importing n length).aliasOf? (Name.relative m) = some (.text (.ofList (.replicate length 'a'))) := by
    simp [importing, Namespace.aliasOf?, Table.get?, same, Value.truthy, filled]
  simp only [Namespace.shorten, qualified, known]
  exact Value.display_text _

theorem shortens_of_mem (printable : e.IsPrintable) (h : n ∈ Name.qualifiedAmong e.asked) : e.Shortens n := by
  obtain ⟨m, asked, qualified, named⟩ := Name.mem_qualifiedAmong.1 h
  obtain ⟨t, printed⟩ := printable
  -- under an alias that is longer than all that is printed without imports
  refine ⟨importing n (Text.ink t + 1), { name := "" }, fun k other => importing_shortName other _, fun same => ?_⟩
  have shown := Print.shown_element (same.trans printed) m asked
  have long : Text.ink (.ofList (.replicate (Text.ink t + 1) 'a')) = Text.ink t + 1 := by
    rw [Text.ink, String.toList_ofList, List.countP_replicate, if_pos (by decide)]
  rw [importing_shorten qualified named (Nat.succ_ne_zero _), long] at shown
  omega

theorem mem_dependencies_iff_typeNames :
    n ∈ e.dependencies ↔ n ∈ Name.qualifiedAmong (e.references.flatMap Value.typeNames) := by
  rw [mem_dependencies_iff, Name.mem_qualifiedAmong]
  constructor
  · rintro ⟨s, hs, found⟩
    obtain ⟨m, hm, qualified⟩ := Name.mem_qualifiedAmong.1 found
    exact ⟨m, List.mem_flatMap.2 ⟨_, hs, hm⟩, qualified⟩
  · rintro ⟨m, mem, qualified⟩
    obtain ⟨v, hv, hm⟩ := List.mem_flatMap.1 mem
    cases v with
    | text s => exact ⟨s, hv, Name.mem_qualifiedAmong.2 ⟨m, hm, qualified⟩⟩
    | _ => cases hm

/-- Whether all classes are named as they may be, in ASCII, and a type is an expression if there is one. -/
structure IsWellNamed (e : Element) : Prop where
  supertype : ∀ v ∈ e.parents ++ e.interfaces ++ e.traits, ∃ s, v = .text s
  attributed : ∀ a ∈ e.attributed, ∀ b ∈ a.attributes, ∃ s, b.name = .text s
  type : ∀ t ∈ e.types, t.1.truthy = true → ∃ s, t.1 = .text s
  name : ∀ n ∈ e.asked, ∃ segments, Name.Labels segments n ∧ Name.IsAscii n

theorem exists_text_of_mem_references {a : Annotations} (named : ∀ b ∈ a.attributes, ∃ s, b.name = .text s) :
    ∀ v ∈ a.references, ∃ s, v = .text s := by
  intro v hv
  obtain ⟨b, hb, mem⟩ := List.mem_flatMap.1 hv
  obtain rfl | argument := List.mem_cons.1 mem
  · exact named b hb
  · obtain ⟨w, -, direct⟩ := List.mem_filterMap.1 argument
    split at direct <;> cases direct
    exact ⟨_, rfl⟩

theorem exists_text_of_mem_method {m : Method} (typed : ∀ t ∈ m.types, t.1.truthy = true → ∃ s, t.1 = .text s)
    (named : ∀ a ∈ m.attributed, ∀ v ∈ a.references, ∃ s, v = .text s) :
    ∀ v ∈ m.references, v.truthy = true → ∃ s, v = .text s := by
  intro v hv filled
  obtain hv | parameter := List.mem_append.1 hv
  · obtain hv | own := List.mem_append.1 hv
    · obtain type | last := List.mem_append.1 hv
      · obtain ⟨p, hp, rfl⟩ := List.mem_map.1 type
        exact typed (p.type, p.nullable) (List.mem_append_left _ (List.mem_map_of_mem hp)) filled
      · obtain rfl := List.mem_singleton.1 last
        exact typed (m.returnType, m.returnNullable) (List.mem_append_right _ List.mem_cons_self) filled
    · exact named _ List.mem_cons_self v own
  · obtain ⟨p, hp, hv⟩ := List.mem_flatMap.1 parameter
    exact named _ (List.mem_cons_of_mem _ (List.mem_map_of_mem hp)) v hv

namespace IsWellNamed

theorem searchable (h : e.IsWellNamed) : ∀ v ∈ e.references, v.truthy = true → ∃ s, v = .text s := by
  have named {a : Annotations} (ha : a ∈ e.attributed) := exists_text_of_mem_references (h.attributed a ha)
  intro v hv filled
  obtain hv | own := List.mem_append.1 hv
  · obtain hv | property := List.mem_append.1 hv
    · obtain supertype | method := List.mem_append.1 hv
      · exact h.supertype v supertype
      · obtain ⟨m, hm, hv⟩ := List.mem_flatMap.1 method
        have typed (t) (ht : t ∈ m.types) := h.type t (List.mem_append_right _ (List.mem_flatMap.2 ⟨m, hm, ht⟩))
        have carried (a) (ha : a ∈ m.attributed) := named (List.mem_append_right _ (List.mem_flatMap.2 ⟨m, hm, ha⟩))
        exact exists_text_of_mem_method typed carried v hv filled
    · obtain ⟨p, hp, hv⟩ := List.mem_flatMap.1 property
      obtain rfl | reference := List.mem_cons.1 hv
      · exact h.type (p.type, p.nullable) (List.mem_append_left _ (List.mem_map_of_mem hp)) filled
      · exact named (List.mem_append_left _ (List.mem_append_right _ (List.mem_map_of_mem hp))) v reference
  · exact named List.mem_cons_self v own

theorem names_eq (h : e.IsWellNamed) : ∀ n ∈ e.asked, Name.names n = [n] := by
  intro n hn
  obtain ⟨segments, labels, ascii⟩ := h.name n hn
  exact Name.names_of_isWhole (labels.isWhole ascii)

theorem mem_qualifiedAmong_asked (h : e.IsWellNamed) :
    n ∈ Name.qualifiedAmong e.asked ↔ n ∈ e.dependencies ∨ n ∈ Name.qualifiedAmong e.passedOver := by
  rw [mem_dependencies_iff_typeNames]
  simp only [Name.mem_qualifiedAmong, parted h.names_eq _, or_and_right, exists_or]

end IsWellNamed

/-- The dependencies can be collected; each is a qualified name without a backslash in front, and is listed once.  They
are the qualified names at the places that are looked at.  A class whose name the printed text depends on is one of them
or is passed over, and the text depends on all of these. -/
theorem dependencies_cover (h : e.IsWellNamed) : e.harvest = .ok e.dependencies ∧ e.dependencies.Nodup ∧
    (∀ n ∈ e.dependencies, Name.separator ∈ n.toList ∧ n.toList.head? ≠ some Name.separator) ∧
    (∀ n, n ∈ e.dependencies ↔ n ∈ Name.qualifiedAmong (e.references.flatMap Value.typeNames)) ∧
    (∀ n, e.Shortens n → n ∈ e.dependencies ∨ n ∈ Name.qualifiedAmong e.passedOver) ∧
    (e.IsPrintable → ∀ n, n ∈ e.dependencies ∨ n ∈ Name.qualifiedAmong e.passedOver → e.Shortens n) := by
  refine ⟨harvest_eq h.searchable, e.nodup_dependencies, fun n hn => ?_, fun n => mem_dependencies_iff_typeNames,
    fun n shortened => ?_, fun printable n hn => ?_⟩
  · obtain ⟨s, -, found⟩ := mem_dependencies_iff.1 hn
    refine ⟨Name.separator_mem_of_mem_qualifiedNames found, ?_⟩
    rw [← (relative_of_mem_dependencies hn).1]
    exact Name.head?_relative n
  · exact h.mem_qualifiedAmong_asked.1 (mem_of_shortens shortened)
  · exact shortens_of_mem printable (h.mem_qualifiedAmong_asked.2 hn)

def manifold : Element where
  name := "A"
  annotations := { attributes := [{
    name := "Lib\\Tag", arguments := .positional [.classReference "Lib\\Near", .list [.classReference "Lib\\Far"]] }] }
  constants := ⟨[("K", { name := "K", value := .classReference "\\Lib\\Fixed" })]⟩
  form := .cls "\\Lib\\Base" [] [] ⟨[("p", { name := "p", type := "?Lib\\Kind" })]⟩ false false false

theorem isPrintable_of_isOk (h : (Print.element (.ok Template.elementLayout) { name := "" } e).isOk = true) :
    e.IsPrintable := by
  unfold IsPrintable
  cases printed : Print.element (.ok Template.elementLayout) { name := "" } e with
  | error f =>
    rw [printed] at h
    cases h
  | ok t => exact ⟨t, rfl⟩

theorem isWellNamed_manifold : manifold.IsWellNamed := by
  have asked : manifold.asked =
      ["\\Lib\\Base", "Lib\\Tag", "Lib\\Near", "Lib\\Far", "\\Lib\\Fixed", "Lib\\Kind"] := by cbv
  constructor
  · show ∀ v ∈ [Value.text "\\Lib\\Base"], ∃ s, v = .text s
    simp
  · show ∀ a ∈ [manifold.annotations, {}, {}], ∀ b ∈ a.attributes, ∃ s, b.name = .text s
    simp [manifold]
  · show ∀ t ∈ [(Value.text "?Lib\\Kind", Value.bool false)], t.1.truthy = true → ∃ s, t.1 = .text s
    simp
  · rw [asked]
    simp only [List.forall_mem_cons, List.not_mem_nil, false_implies, implies_true, and_true]
    exact ⟨⟨["Lib", "Base"], ⟨by decide, by decide, .inr (by decide)⟩, by decide⟩,
      ⟨["Lib", "Tag"], ⟨by decide, by decide, .inl (by decide)⟩, by decide⟩,
      ⟨["Lib", "Near"], ⟨by decide, by decide, .inl (by decide)⟩, by decide⟩,
      ⟨["Lib", "Far"], ⟨by decide, by decide, .inl (by decide)⟩, by decide⟩,
      ⟨["Lib", "Fixed"], ⟨by decide, by decide, .inr (by decide)⟩, by decide⟩,
      ⟨["Lib", "Kind"], ⟨by decide, by decide, .inl (by decide)⟩, by decide⟩⟩

theorem dependencies_cover_manifold : manifold.IsWellNamed ∧ manifold.IsPrintable ∧
    manifold.dependencies = ["Lib\\Base", "Lib\\Kind", "Lib\\Tag", "Lib\\Near"] ∧
    ∀ n, manifold.Shortens n ↔
      n ∈ ["Lib\\Base", "Lib\\Kind", "Lib\\Tag", "Lib\\Near"] ∨ n ∈ ["Lib\\Far", "Lib\\Fixed"] := by
  have printable : manifold.IsPrintable := isPrintable_of_isOk (by decide +kernel)
  have listed : manifold.dependencies = ["Lib\\Base", "Lib\\Kind", "Lib\\Tag", "Lib\\Near"] := by cbv
  have passed : Name.qualifiedAmong manifold.passedOver = ["Lib\\Far", "Lib\\Fixed"] := by cbv
  obtain ⟨-, -, -, -, within, all⟩ := dependencies_cover isWellNamed_manifold
  rw [listed, passed] at within
  rw [listed, passed] at all
  exact ⟨isWellNamed_manifold, printable, listed, fun n => ⟨within n, all printable n⟩⟩

def listing : Element where
  name := "A"
  annotations := { attributes := [{ name := "X", arguments := .positional [.list [.classReference "Lib\\B"]] }] }
  form := .bare .cls

theorem shortens_listing : listing.IsWellNamed ∧ listing.IsPrintable ∧ listing.harvest = .ok [] ∧
    listing.Shortens "Lib\\B" := by
  have asked : listing.asked = ["X", "Lib\\B"] := by cbv
  have printable : listing.IsPrintable := isPrintable_of_isOk (by decide +kernel)
  have named : listing.IsWellNamed := by
    constructor
    · exact fun v hv => absurd hv List.not_mem_nil
    · show ∀ a ∈ [listing.annotations], ∀ b ∈ a.attributes, ∃ s, b.name = .text s
      simp [listing]
    · exact fun t ht => absurd ht List.not_mem_nil
    · rw [asked]
      simp only [List.forall_mem_cons, List.not_mem_nil, false_implies, implies_true, and_true]
      exact ⟨⟨["X"], ⟨by decide, by decide, .inl (by decide)⟩, by decide⟩,
        ⟨["Lib", "B"], ⟨by decide, by decide, .inl (by decide)⟩, by decide⟩⟩
  refine ⟨named, printable, ?_, shortens_of_mem printable ?_⟩
  · rw [harvest_eq named.searchable]
    cbv
  · have qualified : Name.qualifiedAmong ["X", "Lib\\B"] = ["Lib\\B"] := by cbv
    rw [asked, qualified]
    exact List.mem_cons_self

end Element

end PhpScaffold
