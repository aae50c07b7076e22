import PhpScaffold.Files.Tree
import PhpScaffold.Json.Read
import PhpScaffold.Mapping

namespace PhpScaffold

structure Config where
  root : Path
  commands : List String := []
  mappings : Mappings := {}
  strictTypes : Bool := true
  fallbackRoot : String := "src"
  templatesDir : Option Path := none
  composerFile : Option Path := none

namespace Config

def resolver (c : Config) : Resolver := ⟨c.mappings, c.fallbackRoot⟩

def validate (c : Config) : Except Fault Unit := c.mappings.validate

end Config

end PhpScaffold

namespace PhpScaffold.Composer

def entries : Value → List (Value × Value)
  | .dict es => es
  | _ => []

def inside (key : String) (v : Value) : Value := (Value.lookupText key (entries v)).getD .null

def directory (v : Value) : String :=
  let first := match v with
    | .list vs => vs.head?.getD (.text "")
    | v => v
  match first with
  | .text s => Text.trimEnd (· = '/') s
  | _ => ""

def mapping? : Value × Value → Option (String × String)
  | (.text lead, v) => some (lead, directory v)
  | _ => none

def sections : List String := ["autoload", "autoload-dev"]

def table (document : Value) : Table String :=
  .ofList <| sections.flatMap fun s => (entries (inside "psr-4" (inside s document))).filterMap mapping?

def read (t : Tree) (p : Path) : Except Fault (Table String) := do
  if !(← t.exists? p) then throw (.config (.composerMissing p.text))
  let content ← match t.read p with
    | .ok bytes => Tree.decode bytes
    | .error f => throw (.config (.composerUnreadable p.text f.message))
  match Json.read content with
  | .error (.place _) => throw (.config (.composerUnreadable p.text "the text is not a JSON document"))
  | .error (.other cause) => throw cause
  | .ok (.dict es) => return table (.dict es)
  | .ok _ => throw (.config (.composerShape p.text))

end PhpScaffold.Composer
