import PhpScaffold.Model.File
import PhpScaffold.Proofs.Text.Plain

namespace PhpScaffold

namespace Value

def IsPlain : Value → Prop
  | .text s => Text.IsPlain s
  | _ => False

def IsPlainOrNull : Value → Prop
  | .null => True
  | .text s => Text.IsPlain s
  | _ => False

mutual

def IsPrintable : Value → Prop
  | .null | .bool _ | .float _ => True
  | .int n => Decimal.isLong n = false
  | .text s | .literal s | .classReference s => Text.IsPlain s
  | .list vs | .tuple vs => ArePrintable vs
  | .dict es => EntriesPrintable es
  | _ => False

def ArePrintable : List Value → Prop
  | [] => True
  | v :: r => IsPrintable v ∧ ArePrintable r

def EntriesPrintable : List (Value × Value) → Prop
  | [] => True
  | (k, v) :: r => IsPrintable k ∧ IsPrintable v ∧ EntriesPrintable r

end

theorem IsPlain.exists_text {v : Value} (h : v.IsPlain) : ∃ s, v = .text s ∧ Text.IsPlain s := by
  cases v with
  | text s => exact ⟨s, rfl, h⟩
  | _ => exact h.elim

theorem IsPlain.display {v : Value} (h : v.IsPlain) : Text.IsPlain v.display := by
  obtain ⟨s, rfl, plain⟩ := h.exists_text
  simpa using plain

end Value

def Arguments.IsPlain : Arguments → Prop
  | .positional vs => Value.ArePrintable vs
  | .named es => ∀ e ∈ es, e.1.IsPlain ∧ e.2.IsPrintable

structure Attribute.IsPlain (a : Attribute) : Prop where
  name : a.name.IsPlain
  arguments : a.arguments.IsPlain

structure Annotations.IsPlain (a : Annotations) : Prop where
  attributes : ∀ t ∈ a.attributes, t.IsPlain
  comment : a.comment.IsPlainOrNull

structure Parameter.IsPlain (p : Parameter) : Prop where
  name : p.name.IsPlain
  annotations : p.annotations.IsPlain
  type : p.type.IsPlainOrNull
  default : ∀ v ∈ p.default, v.IsPrintable

structure Method.IsPlain (m : Method) : Prop where
  name : m.name.IsPlain
  annotations : m.annotations.IsPlain
  parameters : ∀ p ∈ m.parameters.values, p.IsPlain
  returnType : m.returnType.IsPlainOrNull
  body : m.body.IsPlainOrNull

structure Property.IsPlain (p : Property) : Prop where
  name : p.name.IsPlain
  annotations : p.annotations.IsPlain
  type : p.type.IsPlainOrNull
  value : ∀ v ∈ p.value, v.IsPrintable

structure Constant.IsPlain (c : Constant) : Prop where
  name : c.name.IsPlain
  annotations : c.annotations.IsPlain
  value : c.value.IsPrintable

structure EnumCase.IsPlain (c : EnumCase) : Prop where
  name : c.name.IsPlain
  annotations : c.annotations.IsPlain
  value : c.value.IsPrintable

structure Element.IsPlain (e : Element) : Prop where
  name : e.name.IsPlain
  annotations : e.annotations.IsPlain
  names : ∀ n ∈ e.parents ++ e.interfaces ++ e.traits, n.IsPlain
  cases : ∀ c ∈ e.cases, c.IsPlain
  constants : ∀ c ∈ e.constants.values, c.IsPlain
  properties : ∀ p ∈ e.properties, p.IsPlain
  methods : ∀ m ∈ e.methods.values, m.IsPlain

structure Namespace.HasPlainNames (ns : Namespace) : Prop where
  name : ns.name.IsPlain
  uses : ∀ e ∈ ns.uses.entries, Text.IsPlain e.1 ∧ e.2.IsPlain

structure Namespace.IsPlain (ns : Namespace) : Prop extends ns.HasPlainNames where
  elements : ∀ e ∈ ns.elements.values, e.IsPlain

structure SourceFile.IsPlain (f : SourceFile) : Prop where
  comment : f.comment.IsPlainOrNull
  namespaces : ∀ ns ∈ f.namespaces.values, ns.IsPlain

end PhpScaffold
