import PhpScaffold.Project

namespace PhpScaffold

structure Argument where
  name : String
  description : String := ""
  required : Bool := true

structure Choice where
  name : String
  description : String := ""
  shortcut : Option String := none
  takesValue : Bool := false
  default : Value := .null

def Choice.fallback (o : Choice) : Value := if o.takesValue then o.default else .bool false

abbrev Params := Table Value

structure Command where
  name : String
  description : String := ""
  arguments : List Argument := []
  options : List Choice := []
  handle : Params → List Event × Except Fault Project

namespace Command

def argument (params : Params) (name : String) : Except Fault String :=
  match params.get? name with
  | some (.text s) => if s.isEmpty then throw (.emptyArgument name) else return s
  | _ => throw (.emptyArgument name)

def option (c : Command) (params : Params) (name : String) : Except Fault Value :=
  match c.options.find? (·.name = name) with
  | none => throw (.noOption c.name name)
  | some o => match params.get? name with
    | none | some .null => return o.fallback
    | some v => return v

/-- Starts projects from blueprints whose recipes are tried out one after the other. -/
def collect : List (Except Fault (Blueprint × List Event)) → List Event × Except Fault Project
  | steps => go {} steps
where
  go (p : Project) : List (Except Fault (Blueprint × List Event)) → List Event × Except Fault Project
    | [] => ([], .ok p)
    | .error f :: _ => ([], .error f)
    | .ok (b, events) :: r =>
      let (more, result) := go (p.addBlueprint b) r
      (events ++ more, result)

end Command

namespace Element

def freeze (e : Element) : Element :=
  match e.form with
  | .cls parent is ts ps _ isAbstract _ => { e with form := .cls parent is ts ps true isAbstract true }
  | _ => e

def withMethod (e : Element) (m : Method) : Element := { e with methods := e.methods.insert m.name m }

def withInterface (e : Element) (name : String) : Element :=
  match e.form with
  | .cls parent is ts ps f a r => { e with form := .cls parent (Value.insertItem is name) ts ps f a r }
  | _ => e

def withParts (e : Element) (parent trait : String) (properties : List Property) : Element :=
  match e.form with
  | .cls _ is ts _ f a r =>
    let table := Roster.ofList (properties.map fun p => (p.name, p))
    { e with form := .cls parent is (Value.insertItem ts trait) table f a r }
  | _ => e

def withAttribute (e : Element) (a : Attribute) : Element :=
  { e with annotations := { e.annotations with attributes := e.annotations.attributes ++ [a] } }

end Element

def Recipe.shape (f : Element → Element) : Recipe := .steady fun e => return .given (f e)

end PhpScaffold
