import PhpScaffold.Log
import PhpScaffold.Name
import PhpScaffold.Table
import PhpScaffold.Text.LetterCase

namespace PhpScaffold

structure Mappings where
  normal : Table String := {}
  priority : Table String := {}
  deriving DecidableEq

namespace Mappings

def effective (m : Mappings) : Table String := m.normal.insertAll m.priority.entries

def checkEntry (tier : Tier) (e : String × String) : Except Fault Unit := do
  if (Name.bare e.1).isEmpty then throw (.config (.emptyNamespace tier))
  if Text.allBlank e.2 then throw (.config (.emptyDirectory tier e.1))

def directoryKey (directory : String) : String :=
  Text.trimEnd (fun c => c = '/' || c = '\\') directory

def checkShared (tier : Tier) (taken : Table String) : List (String × String) → Except Fault Unit
  | [] => return
  | (lead, directory) :: r =>
    match taken.get? (directoryKey directory) with
    | some first => throw (.config (.sharedDirectory tier directory first lead))
    | none => checkShared tier (taken.insert (directoryKey directory) lead) r

def validate (m : Mappings) : Except Fault Unit := do
  if m.normal.isEmpty && m.priority.isEmpty then throw (.config .noMapping)
  m.normal.entries.forM (checkEntry .normal)
  m.priority.entries.forM (checkEntry .priority)
  checkShared .priority {} m.priority.entries
  checkShared .normal {} m.normal.entries

end Mappings

structure Match where
  lead : String
  directory : String
  deriving DecidableEq

structure Resolver where
  mappings : Mappings
  fallback : String := "src"

namespace Resolver

def trimSlashes (s : String) : String := Text.trimEnd (· = '/') s

def fallbackRoot (r : Resolver) : String := trimSlashes r.fallback

def match? (target : String) (e : String × String) : Option Match :=
  let lead := Name.bare e.1 ++ "\\"
  if lead = "\\" || !Text.startsWith target lead then none else some ⟨lead, trimSlashes e.2⟩

def better (tier : Tier) (best : Option Match) (m : Match) : Option Match :=
  match best with
  | none => some m
  | some b =>
    if b.lead.length < m.lead.length ∨ (tier = .priority ∧ m.lead.length = b.lead.length) then some m
    else some b

def scan (tier : Tier) (target : String) (best : Option Match) (entries : List (String × String)) :
    Option Match :=
  (entries.filterMap (match? target)).foldl (better tier) best

def bestMatch (r : Resolver) (scope : String) : Option Match :=
  let target := Name.bare scope ++ "\\"
  scan .priority target (scan .normal target none r.mappings.normal.entries) r.mappings.priority.entries

def slashed (scope : String) : String := Text.replace '\\' '/' scope

def remainder (scope : String) (m : Match) : String :=
  Name.bare (.ofList ((scope ++ "\\").toList.drop m.lead.length))

def directory (r : Resolver) (scope : String) : String :=
  let scope := Name.bare scope
  match r.bestMatch scope with
  | none => if scope.isEmpty then r.fallbackRoot else r.fallbackRoot ++ "/" ++ slashed scope
  | some m =>
    let rest := remainder scope m
    if rest.isEmpty then m.directory else m.directory ++ "/" ++ slashed rest

def events (r : Resolver) (scope : String) : List Event :=
  match r.bestMatch scope with
  | none => [.unmapped (Name.bare scope) (r.directory scope)]
  | some _ => []

/-- The namespace of a name.  A last segment with a capital first letter is taken to be a class, provided it is
not the only one. -/
def scopeOf (name : String) : String :=
  let name := Name.bare name
  let (scope, last) := Name.splitLast name
  if name.toList.contains Name.separator && (last.toList.head?.map Text.isUpper).getD false then scope
  else name

def directoryOf (r : Resolver) (name : String) : String := r.directory (scopeOf name)

end Resolver

end PhpScaffold
