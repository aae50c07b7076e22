import PhpScaffold.Command.Handler
import PhpScaffold.Generate
import PhpScaffold.PropertyList

namespace PhpScaffold.Command

def createClass : Command where
  name := "class:create"
  description := "Create a simple class"
  arguments := [{ name := "fully-qualified-name", description := "Class name" }]
  handle params := collect [do
    let name ← argument params "fully-qualified-name"
    return ({ name, kind := .cls }, [])]

def carrier (properties : Table String) : Method where
  name := "__construct"
  parameters := .ofList <| properties.entries.map fun (name, type) =>
    (name, { name, type, promotion := some {} })

def dataClass (properties : Table String) (e : Element) : Element :=
  e.freeze.withMethod (carrier properties)

def dataBlueprint (name properties : String) : Except Fault (Blueprint × List Event) :=
  ({ name, kind := .cls } : Blueprint).withRecipe (.shape (dataClass (PropertyList.parse properties)))

def defaultProperties : String := "id:int"

def createData : Command where
  name := "dto:create"
  description := "Create a simple DTO class with readonly properties"
  arguments := [{ name := "fully-qualified-name", description := "DTO class name" }]
  options := [propertyOption]
  handle params := collect [do
    let name ← argument params "fully-qualified-name"
    match params.get? "properties" with
    | none | some .null => dataBlueprint name defaultProperties
    | some (.text properties) => dataBlueprint name properties
    | some _ => throw .properties]
where
  propertyOption : Choice := {
    name := "properties"
    description := "Properties (format: name:type,email:string)"
    shortcut := some "p"
    takesValue := true
    default := .text defaultProperties }

end PhpScaffold.Command

namespace PhpScaffold

/-- An installed plugin: the name it is installed under, and what loading it gives — a command, something that is
none, or a failure. -/
structure Plugin where
  entry : String
  load : Except String (Option Command)

namespace Command

def builtin : List Command := [createClass, createData, generateQuery, generateCommand]

def names (cs : List Command) : List String := cs.map Command.name

def install (cs : List Command) (p : Plugin) : Except Fault (List Command) :=
  match p.load with
  | .error reason => throw (.config (.pluginImport p.entry reason))
  | .ok none => throw (.config (.pluginShape p.entry))
  | .ok (some c) =>
    if c.name ∈ names cs then throw (.config (.pluginClash c.name p.entry)) else return cs ++ [c]

def insertSorted (s : String) : List String → List String
  | [] => [s]
  | t :: r => if Text.before s t then s :: t :: r else if s = t then t :: r else t :: insertSorted s r

def discover (plugins : List Plugin) (enabled : List String) : Except Fault (List Command) := do
  let all ← plugins.foldlM install builtin
  if enabled.isEmpty then return all
  let missing := (enabled.filter (· ∉ names all)).foldr insertSorted []
  if !missing.isEmpty then throw (.config (.unknownCommands missing))
  return all.filter (·.name ∈ enabled)

end Command

/-- An output: the texts that its encoding can carry.  Those in ASCII it always can. -/
structure Output where
  encode : String → Except Fault Unit
  ascii : ∀ s : String, (∀ c ∈ s.toList, c.toNat < 0x80) → encode s = .ok ()

def Output.utf8 : Output where
  encode := storable
  ascii s h := by
    rw [storable, Text.firstHalves?_ascii h]
    rfl

def Output.say (o : Output) : List String → List String × Option Fault
  | [] => ([], none)
  | s :: r => match o.encode s with
    | .error f => ([], some f)
    | .ok () => (s :: (o.say r).1, (o.say r).2)

/-- What a front end finds where it runs: the plugins that are installed, the engine that reads templates, and the
output. -/
structure Host where
  plugins : List Plugin := []
  engine : Engine := .plain
  output : Output := .utf8

end PhpScaffold
