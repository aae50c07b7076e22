import PhpScaffold.Model.Operation

namespace PhpScaffold

inductive Node
  | file (f : SourceFile)
  | scope (ns : Namespace)
  | element (e : Element)
  | method (m : Method)
  | property (p : Property)
  | constant (c : Constant)
  | enumCase (c : EnumCase)
  | parameter (p : Parameter)

inductive Hop
  | scope (name : Value)
  | element (name : Value)
  | method (name : Value)
  | property (name : Value)
  | constant (name : Value)
  | enumCase (name : Value)
  | parameter (name : Value)
  | unknown (word : String)

structure Step where
  path : List Hop := []
  word : String
  arguments : List Value := []

structure Ref where
  name : Value
  typeName : String

inductive Reply
  | target
  | ref (r : Ref)
  | refs (rs : List Ref)
  | value (v : Value)

def Value.readNames (v : Value) : Except Fault (List Value) :=
  match v.items? with
  | some vs => return distinct (← vs.mapM asKey)
  | none => throw (.notIterable v.typeName)

/-- An action on a part of the model.  What it has changed before a fault stays changed. -/
abbrev Act (σ α : Type) := EStateM Fault σ α

namespace Act

variable {σ τ α : Type}

def ofExcept (x : Except Fault α) : Act σ α := fun s =>
  match x with
  | .ok a => .ok a s
  | .error f => .error f s

instance : MonadLift (Except Fault) (EStateM Fault σ) := ⟨ofExcept⟩

def on (put : τ → σ) (x : Act τ α) (t : τ) : EStateM.Result Fault σ α :=
  match x t with
  | .ok a t => .ok a (put t)
  | .error f t => .error f (put t)

def within (get : σ → τ) (put : σ → τ → σ) (x : Act τ α) : Act σ α := fun s => x.on (put s) (get s)

def change (f : σ → σ) : Act σ Reply := do
  modify f
  return .target

def answer (f : σ → Reply) : Act σ Reply := return f (← get)

end Act

open Act (change answer)

namespace Annotations

def perform? : Call → Option (Act Annotations Reply)
  | .addAttribute name arguments => some do
    let a : Attribute := ⟨name, ← Arguments.read arguments⟩
    change fun n => { n with attributes := n.attributes ++ [a] }
  | .setComment text => some (change ({ · with comment := text }))
  | .addComment line => some (change fun n => { n with comment := addLine n.comment line })
  | _ => none

end Annotations

namespace Parameter

def typeName (p : Parameter) : String :=
  if p.promotion.isSome then "PromotedParameter" else "Parameter"

def ref (p : Parameter) : Ref := ⟨p.name, p.typeName⟩

def performPromoted (word : String) (q : Promotion) : Call → Act Parameter Reply
  | .setVisibility keyword => do
    let v ← Visibility.read keyword
    change ({ · with promotion := some { q with visibility := v.getD .pub } })
  | .markVisibility v => change ({ · with promotion := some { q with visibility := v } })
  | .setReadonly on => change ({ · with promotion := some { q with isReadonly := on } })
  | _ => do throw (.noOperation (← get).typeName word)

def perform (word : String) (call : Call) : Act Parameter Reply :=
  match Annotations.perform? call with
  | some notes => notes.within annotations ({ · with annotations := · })
  | none => match call with
    | .setType type => change ({ · with type })
    | .setNullable on => change ({ · with nullable := on })
    | .setVariadic on => change ({ · with variadic := on })
    | .setByReference on => change ({ · with byReference := on })
    | .setDefault value => change ({ · with default := some value })
    | call => do
      match (← get).promotion with
      | some q => performPromoted word q call
      | none => throw (.noOperation (← get).typeName word)

end Parameter

namespace Method

def ref (m : Method) : Ref := ⟨m.name, "Method"⟩

def addParameter (p : Parameter) : Act Method Reply := do
  let key ← p.name.asKey
  modify fun m => { m with parameters := m.parameters.insert key p }
  return .ref p.ref

def perform (word : String) (call : Call) : Act Method Reply :=
  match Annotations.perform? call with
  | some notes => notes.within annotations ({ · with annotations := · })
  | none => match call with
    | .addParameter name default => addParameter { name, default }
    | .addPromoted name default => addParameter { name, default, promotion := some {} }
    | .parameters => answer fun m => .refs (m.parameters.values.map Parameter.ref)
    | .setReturnType type => change ({ · with returnType := type })
    | .setReturnNullable on => change ({ · with returnNullable := on })
    | .setVisibility keyword => do
      let v ← Visibility.read keyword
      change ({ · with visibility := v })
    | .markVisibility v => change ({ · with visibility := some v })
    | .setStatic on => change ({ · with isStatic := on })
    | .setFinal on => change ({ · with isFinal := on })
    | .setAbstract on => change ({ · with isAbstract := on })
    | .setBody text => change ({ · with body := text })
    | .addBody line => change fun m =>
      let body := match m.body with
        | .null => line
        | text => text.display ++ "\n" ++ line.display
      { m with body }
    | _ => throw (.noOperation "Method" word)

end Method

namespace Property

def ref (p : Property) : Ref := ⟨p.name, "Property"⟩

def perform (word : String) (call : Call) : Act Property Reply :=
  match Annotations.perform? call with
  | some notes => notes.within annotations ({ · with annotations := · })
  | none => match call with
    | .setType type => change ({ · with type })
    | .setNullable on => change ({ · with nullable := on })
    | .setVisibility keyword => do
      let v ← Visibility.read keyword
      change ({ · with visibility := v.getD .pub })
    | .markVisibility v => change ({ · with visibility := v })
    | .setStatic on => change ({ · with isStatic := on })
    | .setReadonly on => change ({ · with isReadonly := on })
    | .setValue value => change ({ · with value := some value })
    | _ => throw (.noOperation "Property" word)

def ofPair (v : Value) : Except Fault (Value × Property) := do
  let parts := v.items?.getD []
  let name ← (Operation.first parts).asKey
  return (name, { name, type := Operation.second parts })

def ofPairs (vs : List Value) : Except Fault (Roster Property) := do return .ofList (← vs.mapM ofPair)

end Property

namespace Constant

def ref (c : Constant) : Ref := ⟨c.name, "Constant"⟩

def perform (word : String) (call : Call) : Act Constant Reply :=
  match Annotations.perform? call with
  | some notes => notes.within annotations ({ · with annotations := · })
  | none => match call with
    | .setVisibility keyword => do
      let v ← Visibility.read keyword
      change ({ · with visibility := v })
    | .markVisibility v => change ({ · with visibility := some v })
    | .setFinal on => change ({ · with isFinal := on })
    | _ => throw (.noOperation "Constant" word)

end Constant

namespace EnumCase

def ref (c : EnumCase) : Ref := ⟨c.name, "EnumCase"⟩

def perform (word : String) (call : Call) : Act EnumCase Reply :=
  match Annotations.perform? call with
  | some notes => notes.within annotations ({ · with annotations := · })
  | none => throw (.noOperation "EnumCase" word)

end EnumCase

namespace Form

def propertyTable? : Form → Option (Roster Property)
  | cls _ _ _ ps .. => some ps
  | trait _ ps => some ps
  | _ => none

def caseTable? : Form → Option (Roster EnumCase)
  | enum _ _ _ cs => some cs
  | _ => none

def withProperties (ps : Roster Property) : Form → Form
  | cls parent is ts _ f a r => cls parent is ts ps f a r
  | trait ts _ => trait ts ps
  | f => f

def withCases (cs : Roster EnumCase) : Form → Form
  | enum b is ts _ => enum b is ts cs
  | f => f

def become (f : Form) : Act Form Reply := change fun _ => f

def perform? : Call → Form → Option (Act Form Reply)
  | .addTrait n, cls p is ts ps f a r => some (become (cls p is (Value.insertItem ts n) ps f a r))
  | .addTrait n, trait ts ps => some (become (trait (Value.insertItem ts n) ps))
  | .addTrait n, enum b is ts cs => some (become (enum b is (Value.insertItem ts n) cs))
  | .setParents n, cls _ is ts ps f a r => some (become (cls n is ts ps f a r))
  | .setParents ns, interface _ => some do become (interface (← ns.readNames))
  | .addParent n, interface ns => some (become (interface (Value.insertItem ns n)))
  | .addInterface n, cls p is ts ps f a r => some (become (cls p (Value.insertItem is n) ts ps f a r))
  | .addInterface n, enum b is ts cs => some (become (enum b (Value.insertItem is n) ts cs))
  | .setInterfaces ns, cls p _ ts ps f a r => some do become (cls p (← ns.readNames) ts ps f a r)
  | .setFinal on, cls p is ts ps _ a r => some (become (cls p is ts ps on a r))
  | .setAbstract on, cls p is ts ps f _ r => some (become (cls p is ts ps f on r))
  | .setReadonly on, cls p is ts ps f a _ => some (become (cls p is ts ps f a on))
  | .setType type, enum _ is ts cs => some do become (enum (← Backing.read type) is ts cs)
  | _, _ => none

end Form

namespace Element

def ref (e : Element) : Ref := ⟨e.name, e.typeName⟩

def method (e : Element) (name : Value) : Except Fault Method := do
  let name ← name.asKey
  match e.methods.get? name with
  | some m => return m
  | none => throw (.noMethod name.display e.name.display)

def propertyTable (word : String) (e : Element) : Except Fault (Roster Property) :=
  match e.form.propertyTable? with
  | some ps => return ps
  | none => throw (.noOperation e.typeName word)

def caseTable (word : String) (e : Element) : Except Fault (Roster EnumCase) :=
  match e.form.caseTable? with
  | some cs => return cs
  | none => throw (.noOperation e.typeName word)

def performOnParts (word : String) (call : Call) : Act Element Reply := do
  let e ← get
  match call with
  | .addMethod name =>
    let m : Method := { name }
    let key ← name.asKey
    set { e with methods := e.methods.insert key m }
    return .ref m.ref
  | .method name => return .ref (← e.method name).ref
  | .hasMethod name => return .value (e.methods.contains (← name.asKey))
  | .methods => return .refs (e.methods.values.map Method.ref)
  | .addConstant name value =>
    let c : Constant := { name, value }
    let key ← name.asKey
    set { e with constants := e.constants.insert key c }
    return .ref c.ref
  | .addProperty name value =>
    let ps ← e.propertyTable word
    let p : Property := { name, value }
    let key ← name.asKey
    set { e with form := e.form.withProperties (ps.insert key p) }
    return .ref p.ref
  | .setProperties properties =>
    let _ ← e.propertyTable word
    match properties.items? with
    | some pairs =>
      let ps ← Property.ofPairs pairs
      set { e with form := e.form.withProperties ps }
      return .target
    | none => throw (.notIterable properties.typeName)
  | .property name => return .ref (← (← e.propertyTable word).member name).ref
  | .properties => return .refs (e.properties.map Property.ref)
  | .addCase name value =>
    let cs ← e.caseTable word
    let c : EnumCase := { name, value }
    let key ← name.asKey
    set { e with form := e.form.withCases (cs.insert key c) }
    return .ref c.ref
  | .cases => return .refs ((← e.caseTable word).values.map EnumCase.ref)
  | .parents => return .value (.list e.parents)
  | .interfaces => return .value (.list e.interfaces)
  | .traits => return .value (.list e.traits)
  | _ => throw (.noOperation e.typeName word)

def perform (word : String) (call : Call) : Act Element Reply := do
  match Annotations.perform? call, (← get).form.perform? call with
  | some notes, _ => notes.within annotations ({ · with annotations := · })
  | none, some act => act.within form ({ · with form := · })
  | none, none => performOnParts word call

end Element

namespace Namespace

def ref (ns : Namespace) : Ref := ⟨ns.name, "PhpNamespace"⟩

def checkUse (ns : Namespace) (name aliasName : Value) : Except Fault String :=
  match name with
  | .text s => do
    let full := Name.relative s
    unless full.isEmpty || ns.uses.contains full || aliasName.truthy do
      let _ ← ns.uses.values.mapM Value.asKey
    return s
  | .bytes _ => throw (.unlikeBytes .trim)
  | v => throw (.noOperation v.typeName "lstrip")

def perform (word : String) (call : Call) : Act Namespace Reply :=
  match call with
  | .addUse name aliasName => do
    let s ← (← get).checkUse name aliasName
    change (·.addUse s aliasName)
  | .uses => answer fun ns => .value (.dict (ns.uses.entries.map fun e => (.text e.1, e.2)))
  | .addElement kind name => do
    let e := Element.bare (← Kind.read kind) (← name.asKey)
    modify (·.addElement e)
    return .ref e.ref
  | .elements => answer fun ns => .refs (ns.elements.values.map Element.ref)
  | .qualify short => answer fun ns => .value (ns.qualify short)
  | _ => throw (.noOperation "PhpNamespace" word)

end Namespace

namespace SourceFile

def perform (word : String) (call : Call) : Act SourceFile Reply :=
  match call with
  | .setStrictTypes on => change ({ · with strictTypes := on })
  | .addComment line => change fun f => { f with comment := addLine f.comment line }
  | .addNamespace name => do
    let name ← name.asKey
    modify (·.addNamespace name)
    return .ref (((← get).namespaces.get? name).getD { name }).ref
  | .namespaces => answer fun f => .refs (f.namespaces.values.map Namespace.ref)
  | .primaryElement scope => do
    match (← get).primaryElement (← scope.asKey) with
    | some e => return .ref e.ref
    | none => return .value .null
  | _ => throw (.noOperation "PhpFile" word)

end SourceFile

namespace Hop

def ofWord (word : String) (name : Value) : Hop :=
  match word with
  | "ns" => scope name
  | "element" => element name
  | "method" => method name
  | "property" => property name
  | "constant" => constant name
  | "case" => enumCase name
  | "param" => parameter name
  | word => unknown word

def label : Hop → String
  | scope _ => "namespaces"
  | element _ => "elements"
  | method _ => "get_method"
  | property _ => "get_property"
  | constant _ => "constants"
  | enumCase _ => "cases"
  | parameter _ => "parameters"
  | unknown word => word

end Hop

namespace Node

def typeName : Node → String
  | file _ => "PhpFile"
  | scope _ => "PhpNamespace"
  | element e => e.typeName
  | method _ => "Method"
  | property _ => "Property"
  | constant _ => "Constant"
  | enumCase _ => "EnumCase"
  | parameter p => p.typeName

def child (n : Node) (h : Hop) : Except Fault Node := do
  match n, h with
  | _, .unknown word => throw (.noMember (.text word))
  | file f, .scope name => return scope (← f.namespaces.member name)
  | scope ns, .element name => return element (← ns.elements.member name)
  | element e, .method name => return method (← e.method name)
  | element e, .constant name => return constant (← e.constants.member name)
  | element e, .property name => return property (← (← e.propertyTable h.label).member name)
  | element e, .enumCase name => return enumCase (← (← e.caseTable h.label).member name)
  | method m, .parameter name => return parameter (← m.parameters.member name)
  | n, h => throw (.noOperation n.typeName h.label)

def put (n : Node) (h : Hop) (c : Node) : Node :=
  match n, h, c with
  | file f, .scope name, scope ns => file { f with namespaces := f.namespaces.insert name ns }
  | scope ns, .element name, element e => scope { ns with elements := ns.elements.insert name e }
  | element e, .method name, method m => element { e with methods := e.methods.insert name m }
  | element e, .constant name, constant c => element { e with constants := e.constants.insert name c }
  | element e, .property name, property p => match e.form.propertyTable? with
    | some ps => element { e with form := e.form.withProperties (ps.insert name p) }
    | none => n
  | element e, .enumCase name, enumCase c => match e.form.caseTable? with
    | some cs => element { e with form := e.form.withCases (cs.insert name c) }
    | none => n
  | method m, .parameter name, parameter p => method { m with parameters := m.parameters.insert name p }
  | n, _, _ => n

def operations : Node → List Operation
  | file _ => Operation.ofFile
  | scope _ => Operation.ofNamespace
  | element e => Operation.ofElement e.kind
  | method _ => Operation.ofMethod
  | property _ => Operation.ofProperty
  | constant _ => Operation.ofConstant
  | enumCase _ => Operation.ofAnnotations
  | parameter p => Operation.ofParameter p.promotion.isSome

def read (n : Node) (word : String) (arguments : List Value) : Except Fault Call :=
  match n.operations.find? (·.word = word) with
  | some o => o.read arguments
  | none => throw (.noOperation n.typeName word)

def perform (word : String) (call : Call) : Act Node Reply
  | file f => (SourceFile.perform word call).on file f
  | scope ns => (Namespace.perform word call).on scope ns
  | element e => (Element.perform word call).on element e
  | method m => (Method.perform word call).on method m
  | property p => (Property.perform word call).on property p
  | constant c => (Constant.perform word call).on constant c
  | enumCase c => (EnumCase.perform word call).on enumCase c
  | parameter p => (Parameter.perform word call).on parameter p

def ask (word : String) (arguments : List Value) : Act Node Reply := do
  perform word (← (← get).read word arguments)

/-- A call on the part at the end of a path, which it answers with. -/
def edit (word : String) (arguments : List Value) : List Hop → Act Node (Node × Reply)
  | [] => do
    let reply ← ask word arguments
    return (← get, reply)
  | h :: hs => fun n =>
    match n.child h with
    | .ok c => (edit word arguments hs).on (n.put h) c
    | .error f => .error f n

structure Result where
  root : Node
  target : Node
  reply : Reply

def step (n : Node) (s : Step) : Except Fault Result :=
  match edit s.word s.arguments s.path n with
  | .ok (target, reply) root => .ok ⟨root, target, reply⟩
  | .error f _ => .error f

/-- The model after a step, also after one that fails. -/
def next (n : Node) (s : Step) : Node :=
  match edit s.word s.arguments s.path n with
  | .ok _ root | .error _ root => root

def run (n : Node) (steps : List Step) : Except Fault Node :=
  steps.foldlM (fun n s => do return (← n.step s).root) n

end Node

namespace Element

def run (e : Element) (steps : List Step) : Except Fault Element := do
  match ← (Node.element e).run steps with
  | .element e => return e
  | _ => return e

end Element

namespace SourceFile

def run (f : SourceFile) (steps : List Step) : Except Fault SourceFile := do
  match ← (Node.file f).run steps with
  | .file f => return f
  | _ => return f

end SourceFile

end PhpScaffold
