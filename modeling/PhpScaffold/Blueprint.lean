import PhpScaffold.Log
import PhpScaffold.Model.File

namespace PhpScaffold

def Attribute.references (a : Attribute) : List Value :=
  a.name :: a.arguments.values.filterMap fun
    | .classReference name => some (.text name)
    | _ => none

def Annotations.references (a : Annotations) : List Value :=
  a.attributes.flatMap Attribute.references

def Method.references (m : Method) : List Value :=
  m.parameters.values.map Parameter.type ++ [m.returnType] ++ m.annotations.references ++
    m.parameters.values.flatMap fun p => p.annotations.references

def Property.references (p : Property) : List Value :=
  p.type :: p.annotations.references

namespace Element

/-- Every type expression and name that is searched for dependencies, in order. -/
def references (e : Element) : List Value :=
  e.parents ++ e.interfaces ++ e.traits ++ e.methods.values.flatMap Method.references ++
    e.properties.flatMap Property.references ++ e.annotations.references

def dependencies (e : Element) : List String :=
  distinct ((e.references.filterMap Value.text?).flatMap Name.qualifiedNames)

def checkSearchable (v : Value) : Except Fault Unit :=
  match v with
  | .text _ => return
  | .bytes (_ :: _) => throw (.unlikeBytes .search)
  | v => if v.truthy then throw (.notSearchable v.typeName) else return

def harvest (e : Element) : Except Fault (List String) := do
  e.references.forM checkSearchable
  return e.dependencies

end Element

inductive Outcome
  /-- The element that it was given, as it is left: the recipe may have renamed it. -/
  | given (e : Element)
  /-- Another element.  The one that was given goes by some name by then. -/
  | another (e : Element) (left : Value)
  | other (typeName : String)

namespace Outcome

def element? : Outcome → Option Element
  | given e | another e _ => some e
  | other _ => none

def typeName : Outcome → String
  | given e | another e _ => e.typeName
  | other t => t

end Outcome

/-- A recipe may answer differently each time: it knows the elements it was given before. -/
structure Recipe where
  answer : List Element → Element → Except Fault Outcome
  seen : List Element := []

namespace Recipe

def steady (f : Element → Except Fault Outcome) : Recipe := { answer := fun _ => f }

def ofSteps (run : Element → Except Fault Element) : Recipe :=
  steady fun e => return .given (← run e)

def call (r : Recipe) (e : Element) : Recipe × Except Fault Outcome :=
  ({ r with seen := r.seen ++ [e] }, r.answer r.seen e)

end Recipe

structure Blueprint where
  name : String
  kind : Kind
  imports : List String := []
  autoImports : Bool := true
  recipe : Option Recipe := none

namespace Blueprint

def ofKind (name : String) (kind : Value) : Except Fault Blueprint :=
  match kind with
  | .text s => match Kind.ofKeyword? s with
    | some kind => return { name, kind }
    | none => throw (.config (.kind s))
  | v => throw (.config (.kind v.display))

def scope (b : Blueprint) : String := Name.scope b.name

def short (b : Blueprint) : String := Name.short b.name

def addImport (b : Blueprint) (name : String) : Blueprint :=
  let name := Name.relative name
  if name.isEmpty || b.imports.contains name then b else { b with imports := b.imports ++ [name] }

def addImports (b : Blueprint) (names : List String) : Blueprint := names.foldl addImport b

def importName (v : Value) : Except Fault String :=
  match v with
  | .text s => return s
  | .bytes _ => throw (.unlikeBytes .trim)
  | v => throw (.noOperation v.typeName "lstrip")

def addImportItems (b : Blueprint) : List Value → Blueprint × Except Fault Unit
  | [] => (b, .ok ())
  | v :: r =>
    if !v.truthy then b.addImportItems r
    else match importName v with
      | .ok name => (b.addImport name).addImportItems r
      | .error f => (b, .error f)

def addImportsOf (b : Blueprint) (v : Value) : Blueprint × Except Fault Unit :=
  match v.items? with
  | some vs => b.addImportItems vs
  | none => (b, .error (.notIterable v.typeName))

def probeName : Kind → String
  | .cls => "TempClass"
  | .interface => "TempInterface"
  | .trait => "TempTrait"
  | .enum => "TempEnum"

def probe (kind : Kind) : Element := .bare kind (probeName kind)

def withRecipe (b : Blueprint) (r : Recipe) : Except Fault (Blueprint × List Event) :=
  if b.autoImports then
    let (r, answer) := r.call (probe b.kind)
    match answer with
    | .error f => .error f
    | .ok o => match o.element? with
      | none => .ok ({ b with recipe := some r }, [])
      | some e => do
        let found ← e.harvest
        return ({ b.addImports found with recipe := some r }, [.probed b.name found.length])
  else .ok ({ b with recipe := some r }, [])

def describe (b : Blueprint) : String :=
  "Blueprint(" ++ Text.quoted b.name ++ ", " ++ b.kind.keyword ++ ")"

/-- The namespace before the recipe has its say: it declares the bare element and imports everything but the element
itself.  The element comes first, so that no alias is chosen that is spelled like it while there is another. -/
def declaring (b : Blueprint) : Namespace :=
  let declared := ({ name := b.scope } : Namespace).addElement (.bare b.kind b.short)
  (b.imports.filter (· ≠ Name.bare b.name)).foldl (fun ns name => ns.addUse name .null) declared

def draft (b : Blueprint) (strictTypes : Bool) : SourceFile :=
  { strictTypes, namespaces := .ofList [(b.scope, b.declaring)] }

def accept (b : Blueprint) (o : Outcome) : Except Fault Element :=
  match o.element? with
  | some e => if e.kind = b.kind then return e else throw (.wrongElement b.name b.kind.typeName e.typeName)
  | none => throw (.wrongElement b.name b.kind.typeName o.typeName)

/-- The elements of a namespace behind a recipe.  The element that it was given stays under its key, whatever its name
is by now; another element takes its place and is named after the blueprint. -/
def settle (b : Blueprint) (elements : Roster Element) (o : Outcome) : Except Fault (Roster Element) := do
  let e ← b.accept o
  match o with
  | .another _ left => return (elements.erase (← left.asKey)).insert b.short { e with name := b.short }
  | _ => return elements.insert b.short e

def place (b : Blueprint) (f : SourceFile) (o : Outcome) : Except Fault SourceFile := do
  match f.namespaces.get? b.scope with
  | some ns =>
    let elements ← b.settle ns.elements o
    return { f with namespaces := f.namespaces.insert b.scope { ns with elements } }
  | none => return f

def build (b : Blueprint) (strictTypes : Bool) : Blueprint × Except Fault SourceFile :=
  let file := b.draft strictTypes
  match b.recipe with
  | none => (b, .ok file)
  | some r =>
    let (r, answer) := r.call (.bare b.kind b.short)
    ({ b with recipe := some r }, do b.place file (← answer))

end Blueprint

end PhpScaffold
