import PhpScaffold.Tool.Slot

namespace PhpScaffold.Tool

def fill (given : List (Value × Value)) (s : Slot) : Except Problem Value :=
  match Value.lookupText s.key given, s.default with
  | none, none => .error (.missing s.key)
  | none, some d => .ok d
  | some v, _ => match s.expected.accept? v with
    | some v => .ok v
    | none => .error (.invalid s.key s.expected.word)

def problem? : Except Problem Value → Option Problem
  | .error p => some p
  | .ok _ => none

def value? : Except Problem Value → Value
  | .ok v => v
  | .error _ => .null

def strangeKey (k : Value) : String :=
  match k.asInt? with
  | some n => toString n
  | none => k.inspect

def unknownKey? (slots : Table Slot) : Value → Option Problem
  | .text k => if (slots.values.map Slot.key).contains k then none else some (.unknown k)
  | k => some (.strange (strangeKey k))

def isStorable (k : Value) : Bool := k.text?.all fun s => (Text.firstHalves? s).isNone

def problems (slots : Table Slot) (given : List (Value × Value)) : List Problem :=
  let keys := given.map Prod.fst
  if keys.all isStorable then
    (slots.map (fill given)).values.filterMap problem? ++ keys.filterMap (unknownKey? slots)
  else [.unreadableKey]

def validate (c : Command) (given : List (Value × Value)) : Except Fault (Table Value) := do
  let slots := slots c
  if let some fault := slotFault? slots then throw (.slot fault)
  match problems (fillable slots) given with
  | [] =>
    return (((fillable slots).map (fill given)).map value?).insertAll (ownValues slots given).entries
  | ps => throw (.parameters ps)

def isDryRun (values : Table Value) : Bool := ((values.get? "dry_run").getD .null).truthy

def params (c : Command) (values : Table Value) : Params := .ofList <|
  (c.arguments.map Argument.name ++ c.options.map Choice.name).map fun n =>
    (n, (values.get? (slotName n)).getD .null)

end PhpScaffold.Tool
