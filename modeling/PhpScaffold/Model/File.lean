import PhpScaffold.Model.Element
import PhpScaffold.Name
import PhpScaffold.Table

namespace PhpScaffold

structure Namespace where
  name : Value
  uses : Table Value := {}
  elements : Roster Element := {}

namespace Namespace

/-- The last segment, with the segments before it put in front one by one until the alias is free or no
segment is left. -/
def freeAlias (taken : List String) : List String → String → String
  | [], aliasName => aliasName
  | s :: r, aliasName => if aliasName ∈ taken then freeAlias taken r (s ++ aliasName) else aliasName

def taken (ns : Namespace) : List String := (ns.uses.values ++ ns.elements.keys).filterMap Value.text?

def aliasFor (ns : Namespace) (name : String) : String :=
  match (Name.segments name).reverse with
  | [] => name
  | last :: before => freeAlias ns.taken before last

/-- Imports a name, under an alias of its own unless one is given.  An empty name, and one that is imported already,
changes nothing. -/
def addUse (ns : Namespace) (name : String) (aliasName : Value) : Namespace :=
  let name := Name.relative name
  if name.isEmpty || ns.uses.contains name then ns
  else
    let aliasName := if aliasName.truthy then aliasName else ns.aliasFor name
    { ns with uses := ns.uses.insert name aliasName }

def addElement (ns : Namespace) (e : Element) : Namespace :=
  { ns with elements := ns.elements.insert e.name e }

def qualify (ns : Namespace) (short : Value) : Value :=
  if ns.name.truthy then Name.join ns.name.display short.display else short

end Namespace

structure SourceFile where
  comment : Value := .null
  strictTypes : Value := false
  namespaces : Roster Namespace := {}

namespace SourceFile

def addNamespace (f : SourceFile) (name : Value) : SourceFile :=
  if f.namespaces.contains name then f
  else { f with namespaces := f.namespaces.insert name { name } }

def primaryElement (f : SourceFile) (scope : Value) : Option Element :=
  let preferred := match scope with
    | .null => []
    | scope => (f.namespaces.get? scope).toList
  (preferred ++ f.namespaces.values).findSome? fun ns => ns.elements.values.head?

end SourceFile

end PhpScaffold
