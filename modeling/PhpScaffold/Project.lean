import PhpScaffold.Blueprint

namespace PhpScaffold

inductive Product.Field
  | value (v : Value)
  | kind (k : Kind)
  | builder (make : (strictTypes : Bool) → Except Fault SourceFile)

namespace Product.Field

def typeName : Field → String
  | value v => v.typeName
  | kind _ => "ElementKind"
  | builder _ => "method"

def call (strictTypes : Bool) : Field → Except Fault SourceFile
  | builder make => make strictTypes
  | f => throw (.notCallable f.typeName)

end Product.Field

/-- What a factory makes: a blueprint, or an object of any other type, with whatever it has under which names. -/
inductive Product
  | blueprint (b : Blueprint)
  | object (typeName : String) (fields : List (String × Product.Field) := [])

namespace Product

def typeName : Product → String
  | blueprint _ => "Blueprint"
  | object t _ => t

def field? (p : Product) (name : String) : Option Field :=
  match p with
  | blueprint b => match name with
    | "qualified_name" => some (.value b.name)
    | "kind" => some (.kind b.kind)
    | "build" => some (.builder fun strictTypes => (b.build strictTypes).2)
    | _ => none
  | object _ fs => fs.lookup name

/-- The name of a thing that passes for a blueprint, and what it is to be built with.  That has to be there and to be
something; whether it can be called is not asked. -/
def passes? (p : Product) : Option (String × Field) :=
  match p.field? "qualified_name", p.field? "build" with
  | _, some (.value .null) => none
  | some (.value (.text name)), some build => some (name, build)
  | _, _ => none

end Product

structure Artifact where
  key : String
  name : String
  kind : Product.Field
  file : SourceFile

def Product.build (strictTypes : Bool) (key : String) (p : Product) : Except Fault Artifact := do
  match p.passes? with
  | none => throw (.notBlueprint key p.typeName)
  | some (name, build) => return ⟨key, name, (p.field? "kind").getD (.value .null), ← build.call strictTypes⟩

structure Answer (σ : Type) where
  made : Except Fault Product
  events : List Event := []
  additions : List (String × σ) := []

inductive Source
  | held (b : Blueprint)
  | factory (answer : Nat → Answer Source) (asked : Nat := 0)

structure Built (σ α : Type) where
  state : σ
  events : List Event := []
  result : Except Fault α

namespace Source

def answer : Source → Answer Source
  | held b => { made := .ok (.blueprint b) }
  | factory answer asked => answer asked

def next (strictTypes : Bool) : Source → Source
  | held b => held (b.build strictTypes).1
  | factory answer asked => factory answer (asked + 1)

def build (strictTypes : Bool) (key : String) (s : Source) : Except Fault Artifact :=
  match s.answer.made with
  | .error f => throw (.factoryRaised key f.category.label f.text)
  | .ok p => p.build strictTypes key

end Source

structure Project where
  entries : Table Source := {}

namespace Project

def keys (p : Project) : List String := p.entries.keys

def size (p : Project) : Nat := p.entries.entries.length

/-- The name itself, or the name with the least number that makes it new.  Among one more number than there are
keys, one is always new. -/
def freshKey (keys : List String) (name : String) : String :=
  if name ∈ keys then
    let numbered n := name ++ "_" ++ toString (n + 1)
    (((List.range (keys.length + 1)).map numbered).find? (· ∉ keys)).getD name
  else name

def add (p : Project) (name : String) (s : Source) : Project :=
  ⟨p.entries.insert (freshKey p.keys name) s⟩

def addBlueprint (p : Project) (b : Blueprint) : Project := p.add b.name (.held b)

def addFactory (p : Project) (name : String) (answer : Nat → Answer Source) : Project := p.add name (.factory answer)

def addAll (keys : List String) : List (String × Source) → List (String × Source)
  | [] => []
  | (name, s) :: r => (freshKey keys name, s) :: addAll (keys ++ [freshKey keys name]) r

/-- Builds entries in order, up to the first that fails, or to one that adds to the project: a project must not grow
while it is gone through.  `keys` are those of the whole project. -/
def buildEntries (strictTypes : Bool) (keys : List String) :
    List (String × Source) → Built (List (String × Source)) (List Artifact)
  | [] => ⟨[], [], .ok []⟩
  | (key, source) :: r =>
    let answer := source.answer
    let entry := (key, source.next strictTypes)
    let events := .asked key :: answer.events
    match source.build strictTypes key with
    | .error f => ⟨entry :: r ++ addAll keys answer.additions, events, .error f⟩
    | .ok artifact =>
      if answer.additions.isEmpty then
        let rest := buildEntries strictTypes keys r
        ⟨entry :: rest.state, events ++ .built key :: rest.events, do return artifact :: (← rest.result)⟩
      else ⟨entry :: r ++ addAll keys answer.additions, events ++ [.built key], .error .grown⟩

def build (p : Project) (strictTypes : Bool) : Built Project (List Artifact) :=
  let b := buildEntries strictTypes p.keys p.entries.entries
  ⟨⟨⟨b.state⟩⟩, b.events, b.result⟩

end Project

end PhpScaffold
