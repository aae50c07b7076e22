import PhpScaffold.Fault

namespace PhpScaffold.Service

inductive Unsayable
  | value (typeName : String)
  | key (typeName : String)
  | text (cause : Fault)
  | bytes

def unknownType (typeName : String) : String := "Unable to serialize unknown type: <class '" ++ typeName ++ "'>"

def Unsayable.message : Unsayable → String
  | value typeName => unknownType typeName
  | key typeName => "Error serializing to JSON: PydanticSerializationError: " ++ unknownType typeName
  | text cause => "Error serializing to JSON: " ++ cause.category.label ++ ": " ++ cause.message
  | bytes => "invalid utf-8 sequence"

def Unsayable.fault (u : Unsayable) : Fault := .raised .value u.message

def plainText (s : String) : Except Fault String := do
  (storable s).mapError fun f => (Unsayable.text f).fault
  return s

def plainBytes (b : List UInt8) : Except Fault String :=
  match Text.ofBytes? ⟨b.toArray⟩ with
  | some s => return s
  | none => throw Unsayable.bytes.fault

mutual

def plainKey : Value → Except Fault String
  | .bool b => return if b then "true" else "false"
  | .float x => return if x.isFinite then (Value.float x).display else Value.null.display
  | .text s => plainText s
  | .bytes b => plainBytes b
  | .tuple vs => return ",".intercalate (← plainKeys vs)
  | .foreign t => throw (Unsayable.key t).fault
  | k => return k.display

def plainKeys : List Value → Except Fault (List String)
  | [] => return []
  | v :: r => return (← plainKey v) :: (← plainKeys r)

end

mutual

def plain : Value → Except Fault Value
  | .text s => return .text (← plainText s)
  | .literal code => return .dict [(.text "value", .text (← plainText code))]
  | .classReference name => return .dict [(.text "name", .text (← plainText name))]
  | .list vs => return .list (← plainAll vs)
  | .tuple vs | .set vs => return .list (← plainAll vs)
  | .bytes b => return .text (← plainBytes b)
  | .dict es => return .ofEntries (← plainEntries es)
  | .float x => return if x.isFinite then .float x else .null
  | .foreign t => throw (Unsayable.value t).fault
  | v => return v

def plainAll : List Value → Except Fault (List Value)
  | [] => return []
  | v :: r => return (← plain v) :: (← plainAll r)

def plainEntries : List (Value × Value) → Except Fault (List (Value × Value))
  | [] => return []
  | (k, v) :: r => do
    let key ← plainKey k
    return (.text key, ← plain v) :: (← plainEntries r)

end

end PhpScaffold.Service
