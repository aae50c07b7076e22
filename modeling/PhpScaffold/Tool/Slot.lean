import PhpScaffold.Tool.Schema

namespace PhpScaffold.Tool

inductive Expected
  | string
  | optionalString
  | boolean
  | integer
  | number
  deriving DecidableEq

def Expected.word : Expected → String
  | string | optionalString => "string"
  | boolean => "boolean"
  | integer => "integer"
  | number => "number"

def Expected.ofType : FieldType → Expected
  | .boolean => boolean
  | .integer => integer
  | .number => number
  | .string => string

def Expected.accept? : Expected → Value → Option Value
  | string, .text s => some (.text s)
  | optionalString, .text s => some (.text s)
  | optionalString, .null => some .null
  | boolean, .bool b => some (.bool b)
  | integer, .int n => some (.int n)
  | number, .int n => if (Float.ofInt n).isFinite then some (.float (Float.ofInt n)) else none
  | number, .float x => some (.float x)
  | _, _ => none

structure Slot where
  key : String
  expected : Expected
  default : Option Value

def slotName (name : String) : String := Text.replace '-' '_' name

def slots (c : Command) : Table Slot := .ofList <|
  (c.arguments.map fun a => (slotName a.name,
    if a.required then ⟨camelCase a.name, .string, none⟩
    else ⟨camelCase a.name, .optionalString, some .null⟩)) ++
  (c.options.map fun o => (slotName o.name, ⟨camelCase o.name, .ofType (optionType o), some o.fallback⟩)) ++
  [("dry_run", ⟨dryRunKey, .boolean, some (.bool false)⟩)]

/-- The names of what a set of parameters has of its own besides slots: its rules, what is noted of it, and the values
that are left over. -/
def rulesName : String := "model_config"

def noteNames : List String := ["__doc__", "__module__"]

def surplusName : String := "__pydantic_extra__"

def isOwn (name : String) : Bool := name = rulesName || name = surplusName || name ∈ noteNames

def fillable (slots : Table Slot) : Table Slot := ⟨slots.entries.filter (!isOwn ·.1)⟩

def misuse? (slots : Table Slot) : Option SlotFault :=
  let uses : List (String × SlotFault) := [
    ("__config__", .givenTwice), ("__validators__", .notPairs), ("__base__", .optionalBase),
    ("__cls_kwargs__", .notPairs), ("__base__", .base), ("Config", .rules), ("__root__", .root)]
  uses.findSome? fun (name, fault) =>
    match slots.get? name, fault with
    | none, _ => none
    | some s, .optionalBase => if s.expected = .optionalString then some fault else none
    | some _, _ => some fault

def titleName : String := "__qualname__"

def memberNames : List String := ["model_validate", "model_validate_json", "model_validate_strings"]

/-- Why slots cannot be made, if they cannot.  Underscores in front hide what is the set's own. -/
def slotFault? (slots : Table Slot) : Option SlotFault :=
  let hidden := slots.keys.find? fun n => Text.startsWith n "_" && n ≠ titleName && !isOwn n
  let member := slots.keys.find? memberNames.contains
  (misuse? slots).or <| (hidden.map SlotFault.hidden).or <|
    ((slots.get? titleName).map fun _ => SlotFault.title).or (member.map SlotFault.member)

def ownValues (slots : Table Slot) (given : List (Value × Value)) : Table Value :=
  let filled := (fillable slots).entries.filter fun e => (Value.lookupText e.2.key given).isSome
  let rules : Value := .dict [(.text "extra", .text "forbid"), (.text "strict", .bool true)]
  let note (s : Slot) : Value :=
    .tuple [.foreign (if s.expected = .optionalString then "_UnionGenericAlias" else "type"), .foreign "FieldInfo"]
  ⟨[("model_extra", .null), (surplusName, .null),
      ("model_fields_set", .set (filled.map fun e => .text e.1)), (rulesName, rules)] ++
    noteNames.filterMap fun n => (slots.get? n).map fun s => (n, note s)⟩

end PhpScaffold.Tool
