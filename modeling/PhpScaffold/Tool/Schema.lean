import PhpScaffold.Command.Basic
import PhpScaffold.Text.LetterCase

namespace PhpScaffold.Tool

def capitalize : List Char → List Char
  | [] => []
  | c :: r => Text.upper c ++ r

def uncapitalize : List Char → List Char
  | [] => []
  | c :: r => Text.lower c ++ r

def camelCase (name : String) : String :=
  match name.toList.splitOn '-' with
  | [] => ""
  | head :: rest => .ofList (uncapitalize head ++ rest.flatMap capitalize)

def lead : String := "phpgen_"

def name (c : Command) : String :=
  lead ++ .ofList ((Text.characters c.name.toList).flatMap fun x =>
    if x.all fun c => c.isAlphanum || c = '_' then x else ['_'])

def dryRunKey : String := "dryRun"

inductive FieldType
  | boolean
  | integer
  | number
  | string
  deriving DecidableEq

def FieldType.word : FieldType → String
  | boolean => "boolean"
  | integer => "integer"
  | number => "number"
  | string => "string"

def optionType (o : Choice) : FieldType :=
  if !o.takesValue then .boolean
  else match o.default with
    | .bool _ => .boolean
    | .int _ => .integer
    | .float _ => .number
    | _ => .string

structure Field where
  type : FieldType
  description : String
  default : Option Value := none

structure Schema where
  properties : Table Field
  required : List String

def describe (kind name description : String) : String :=
  if description.isEmpty then kind ++ ": " ++ name else description

def schema (c : Command) : Schema where
  properties := .ofList <|
    (c.arguments.map fun a => (camelCase a.name, ⟨.string, describe "Argument" a.name a.description, none⟩)) ++
    (c.options.map fun o =>
      (camelCase o.name, ⟨optionType o, describe "Option" o.name o.description, some o.fallback⟩)) ++
    [(dryRunKey, ⟨.boolean, "Preview generated files without writing them", some (.bool false)⟩)]
  required := (c.arguments.filter (·.required)).map fun a => camelCase a.name

def Field.toValue (f : Field) : Value :=
  .dict <| [(.text "type", .text f.type.word), (.text "description", .text f.description)] ++
    (f.default.map fun d => (.text "default", d)).toList

def toValue (c : Command) : Value :=
  let s := schema c
  .dict [
    (.text "name", .text (name c)),
    (.text "command", .text c.name),
    (.text "description", .text c.description),
    (.text "inputSchema", .dict [
      (.text "type", .text "object"),
      (.text "properties", .dict (s.properties.entries.map fun (k, f) => (.text k, f.toValue))),
      (.text "required", .list (s.required.map .text))])]

end PhpScaffold.Tool
