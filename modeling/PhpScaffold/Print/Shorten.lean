import PhpScaffold.Model.File
import PhpScaffold.Text.Lines

namespace PhpScaffold.Namespace

def inside? (ns : Namespace) (full : String) : Option String :=
  match ns.name with
  | .text scope =>
    let lead := scope ++ "\\"
    if !scope.isEmpty && Text.startsWith full lead then some (.ofList (full.toList.drop lead.length)) else none
  | _ => none

def member? (ns : Namespace) (full : String) : Option String :=
  (ns.inside? full).filter fun rest =>
    !rest.toList.contains Name.separator && !ns.uses.values.any (Value.same rest)

def aliasOf? (ns : Namespace) (full : String) : Option Value :=
  (ns.uses.get? full).filter Value.truthy

def shorten (ns : Namespace) (name : String) : String :=
  if !Name.isQualified name then name
  else
    let full := Name.relative name
    match ns.aliasOf? full, ns.member? full with
    | some aliasName, _ => aliasName.display
    | none, some rest => rest
    | none, none => "\\" ++ full

def shortenType (ns : Namespace) (expression : String) : String :=
  Name.mapNames ns.shorten expression

/-- A text is shortened to a text, or to its alias, which may be anything.  What is no text is no name, and stays as
it is only where it counts as nothing. -/
def shortName (ns : Namespace) (name : Value) : Except Fault Value :=
  match name with
  | .text s =>
    if !Name.isQualified s then return s
    else match ns.aliasOf? (Name.relative s), ns.name with
      | some aliasName, _ => return aliasName
      | none, .text _ => return ns.shorten s
      | none, scope => if scope.truthy then throw (.notExtensible scope.typeName) else return ns.shorten s
  | .bytes (_ :: _) => throw (.unlikeBytes .start)
  | v => if v.truthy then throw (.noOperation v.typeName "startswith") else return v

def shortPieces (ns : Namespace) (between : List Char) : List Name.Token → Except Fault (List Value)
  | [] => return gap between
  | .other c :: r => ns.shortPieces (between ++ [c]) r
  | .name t :: r => do
    let name ← ns.shortName (.text (.ofList t))
    return gap between ++ name :: (← ns.shortPieces [] r)
where
  gap : List Char → List Value
    | [] => []
    | cs => [.text (.ofList cs)]

/-- One import.  It is left out when the name is in scope anyway. -/
def useStatement? (ns : Namespace) (name : String) (aliasName : Value) : Option String :=
  let (scope, short) := Name.splitLast name
  if Value.same aliasName short then if Value.same ns.name scope then none else some name
  else some (name ++ " as " ++ aliasName.display)

def useStatements (ns : Namespace) : List String :=
  ns.uses.entries.filterMap fun e => ns.useStatement? e.1 e.2

end PhpScaffold.Namespace

namespace PhpScaffold.Print

def strung (vs : List Value) : Except Fault (List String) :=
  vs.zipIdx.mapM fun (v, i) => match v with
    | .text s => return s
    | v => throw (.notText i v.typeName)

def typeText (ns : Namespace) (expression : String) : Except Fault String := do
  let _ ← strung (← ns.shortPieces [] (Name.tokens expression.toList))
  return ns.shortenType expression

structure WrittenType where
  plain : String
  full : Option String
  deriving DecidableEq

def markNullable (plain : String) : String :=
  if plain.toList.head? = some '?' || plain.toList.contains '|' || plain = "mixed" ||
      plain = "null" then plain
  else "?" ++ plain

def writeType (simplified : String) (nullable : Bool) : WrittenType :=
  let mark plain := if nullable then markNullable plain else plain
  if simplified.toList.contains '<' then
    let plain := Text.trim Text.isBlank (.ofList (simplified.toList.takeWhile (· ≠ '<')))
    ⟨mark plain, some simplified⟩
  else ⟨mark simplified, none⟩

/-- An absent or empty type is not written at all. -/
def writeType? (ns : Namespace) (expression nullable : Value) : Except Fault (Option WrittenType) :=
  match expression with
  | .text s => do
    if s.isEmpty then return none
    return some (writeType (← typeText ns (Text.trim Text.isBlank s)) nullable.truthy)
  | .bytes (_ :: _) => throw (.unlikeBytes .search)
  | v => if v.truthy then throw (.noOperation v.typeName "strip") else return none

end PhpScaffold.Print
