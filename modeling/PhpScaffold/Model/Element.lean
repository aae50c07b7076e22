import PhpScaffold.Model.Member

namespace PhpScaffold

inductive Kind
  | cls
  | interface
  | trait
  | enum
  deriving DecidableEq

namespace Kind

def keyword : Kind → String
  | cls => "class"
  | interface => "interface"
  | trait => "trait"
  | enum => "enum"

def typeName : Kind → String
  | cls => "ClassType"
  | interface => "InterfaceType"
  | trait => "TraitType"
  | enum => "EnumType"

def all : List Kind := [cls, interface, trait, enum]

def ofKeyword? (text : String) : Option Kind :=
  all.find? (·.keyword = text)

def read (v : Value) : Except Fault Kind :=
  match v.text?.bind ofKeyword? with
  | some k => return k
  | none => throw (.unknownKind v.inspect)

@[simp] theorem ofKeyword?_keyword (k : Kind) : ofKeyword? k.keyword = some k := by
  cases k <;> decide

end Kind

inductive Backing
  | int
  | string
  deriving DecidableEq

namespace Backing

def keyword : Backing → String
  | int => "int"
  | string => "string"

def read : Value → Except Fault (Option Backing)
  | .null => return none
  | .text "int" => return some int
  | .text "string" => return some string
  | v => throw (.backing v.display)

end Backing

inductive Form
  | cls (parent : Value) (interfaces traits : List Value) (properties : Roster Property)
      (isFinal isAbstract isReadonly : Value)
  | interface (parents : List Value)
  | trait (traits : List Value) (properties : Roster Property)
  | enum (backing : Option Backing) (interfaces traits : List Value) (cases : Roster EnumCase)

namespace Form

def kind : Form → Kind
  | cls .. => .cls
  | interface .. => .interface
  | trait .. => .trait
  | enum .. => .enum

def bare : Kind → Form
  | .cls => cls .null [] [] {} false false false
  | .interface => interface []
  | .trait => trait [] {}
  | .enum => enum none [] [] {}

@[simp] theorem kind_bare (k : Kind) : (bare k).kind = k := by cases k <;> rfl

def parents : Form → List Value
  | cls p .. => if p.truthy then [p] else []
  | interface ps => ps
  | _ => []

def interfaces : Form → List Value
  | cls _ is .. => is
  | enum _ is .. => is
  | _ => []

def traits : Form → List Value
  | cls _ _ ts .. => ts
  | trait ts _ => ts
  | enum _ _ ts _ => ts
  | interface _ => []

def properties : Form → List Property
  | cls _ _ _ ps .. => ps.values
  | trait _ ps => ps.values
  | _ => []

def cases : Form → List EnumCase
  | enum _ _ _ cs => cs.values
  | _ => []

end Form

structure Element where
  name : Value
  annotations : Annotations := {}
  constants : Roster Constant := {}
  methods : Roster Method := {}
  form : Form

namespace Element

def bare (kind : Kind) (name : Value) : Element := { name, form := .bare kind }

def kind (e : Element) : Kind := e.form.kind

def typeName (e : Element) : String := e.kind.typeName

def parents (e : Element) : List Value := e.form.parents

def interfaces (e : Element) : List Value := e.form.interfaces

def traits (e : Element) : List Value := e.form.traits

def properties (e : Element) : List Property := e.form.properties

def cases (e : Element) : List EnumCase := e.form.cases

@[simp] theorem kind_bare (k : Kind) (name : Value) : (bare k name).kind = k := by
  simp [bare, kind]

end Element

end PhpScaffold
