import PhpScaffold.Config
import PhpScaffold.Text.Lines
import PhpScaffold.Text.LetterCase
import PhpScaffold.Yaml.Read

namespace PhpScaffold

namespace Yaml

def Obstacle.report (file : String) : Obstacle → Fault
  | .malformed => .config (.unreadable file "the text is not a YAML document")
  | .fault cause => cause

end Yaml

namespace Config

def fileName : String := ".phpgen.yml"

def text? : Value → Except Fault (Option String)
  | .text s => return some s
  | .int n => do return some (← (Value.int n).shown)
  | .float x => return some (Value.float x).display
  | _ => return none

def nonempty (s : String) : Option String := if s.isEmpty then none else some s

def truth? : Value → Option Bool
  | .bool b => some b
  | .text s =>
    let word := String.ofList ((Text.trimBoth Text.isBlank s.toList).flatMap Text.lower)
    if ["true", "yes", "1"].contains word then some true
    else if ["false", "no", "0"].contains word then some false
    else none
  | _ => none

def commandName? : Value → Except Fault (Option String)
  | .bool b => return some (Value.bool b).display
  | v => text? v

def commandNames : Value → Except Fault (List String)
  | .text s => return [s]
  | .list vs => do return (← vs.mapM commandName?).filterMap id
  | .bytes b => return b.map fun n => toString n.toNat
  | _ => return []

def mappingEntry (e : Value × Value) : Except Fault (String × String) := do
  let lead ← e.1.shown
  match e.2 with
  | .null => return (lead, "")
  | v => return (lead, ← v.shown)

def mappingTable (key : String) : Value → Except Fault (Table String)
  | .null => return {}
  | .dict es => do return .ofList (← es.mapM mappingEntry)
  | _ => throw (.config (.tableShape key))

/-- The normal table: the entries of the settings override those of the composer file. -/
def normalTable (composer explicit : Table String) : Table String := composer.insertAll explicit.entries

def defaultFallback : String := "src"

def fallback (v : Value) : Except Fault String := do
  let given := ((← text? v).bind nonempty).getD defaultFallback
  return (nonempty (Text.trimEnd (· = '/') given)).getD defaultFallback

def ofEntries (t : Tree) (root : Path) (es : List (Value × Value)) : Except Fault Config := do
  let get key := (Value.lookupText key es).getD .null
  let place key : Except Fault (Option Path) := do return ((← text? (get key)).bind nonempty).map root.child
  let composerFile ← place "composer"
  let composer ← match composerFile with
    | none => pure {}
    | some p => Composer.read t p
  let explicit ← mappingTable "psr4" (get "psr4")
  let priority ← mappingTable "priority_psr4" (get "priority_psr4")
  let fallbackRoot ← fallback (get "fallback_root")
  let templatesDir ← place "templates_dir"
  let commands ← commandNames (get "commands")
  return {
    root, commands, fallbackRoot, templatesDir, composerFile
    mappings := ⟨normalTable composer explicit, priority⟩
    strictTypes := (truth? (get "strict_types")).getD true }

def keys : List String :=
  ["composer", "psr4", "priority_psr4", "strict_types", "fallback_root", "templates_dir", "commands"]

def ofDocument (t : Tree) (root : Path) (d : Yaml.Document) : Except Fault Config :=
  match d.content d.root with
  | .map es => ofEntries t root <| es.filterMap fun (k, n) =>
      if keys.any fun key => k.same (.text key) then some (k, d.value n) else none
  | _ => if (d.value d.root).truthy then throw (.config (.notMapping fileName)) else ofEntries t root []

def ofText (t : Tree) (file : Path) (s : String) : Except Fault Config := do
  if Text.allBlank s then ofEntries t file.parent []
  else ofDocument t file.parent (← (Yaml.read s).mapError (Yaml.Obstacle.report file.name))

def file (t : Tree) (p : Path) : Except Fault Path := do
  match ← t.look p with
  | some .directory => return (p.child fileName).resolve
  | _ => if p.hasNull then throw (.system .nullByte p.text) else return p.resolve

def load (t : Tree) (p : Path) : Except Fault Config := do
  let file ← file t p
  if ← t.exists? file then
    ofText t file (.ofList (Lint.unifyBreaks (← t.readText file).toList))
  else return { root := file.parent }

end Config

end PhpScaffold
