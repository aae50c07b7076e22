import PhpScaffold.Calendar
import PhpScaffold.Decimal.Read
import PhpScaffold.Seating
import PhpScaffold.Text.Printable

/-! The values that can stand in generated code, be passed to a command, or be read from a document.
A `dict` is an ordered map whose keys are values; `foreign` stands for an object of some type of which nothing else
is known. -/

namespace PhpScaffold

inductive Value
  | null
  | bool (b : Bool)
  | int (n : Int)
  | float (x : Float)
  | text (s : String)
  | literal (code : String)
  | classReference (name : String)
  | list (items : List Value)
  | tuple (items : List Value)
  | dict (entries : List (Value × Value))
  | bytes (content : List UInt8)
  | set (items : List Value)
  | date (d : Date)
  | moment (m : Moment)
  /-- Where a list or a map holds itself. -/
  | again (isMap : Bool)
  | foreign (typeName : String)
  deriving Inhabited

namespace Value

def typeName : Value → String
  | null => "NoneType"
  | bool _ => "bool"
  | int _ => "int"
  | float _ => "float"
  | text _ => "str"
  | literal _ => "Literal"
  | classReference _ => "ClassReference"
  | list _ => "list"
  | tuple _ => "tuple"
  | dict _ => "dict"
  | bytes _ => "bytes"
  | set _ => "set"
  | date _ => "date"
  | moment _ => "datetime"
  | again isMap => if isMap then "dict" else "list"
  | foreign t => t

def intEqFloat (n : Int) (x : Float) : Bool :=
  let bits := x.toBits.toNat
  let magnitude := bits % Decimal.signBit
  let b := Decimal.Binary.ofBits magnitude
  magnitude < 0x7FF0000000000000 && (n = 0 || (n < 0) == decide (Decimal.signBit ≤ bits)) &&
    b.mantissa * Nat.pow 2 b.exponent.toNat == n.natAbs * Nat.pow 2 (-b.exponent).toNat

def isNoNumber : Value → Bool
  | float x => x.isNaN
  | _ => false

def asInt? : Value → Option Int
  | bool b => some (if b then 1 else 0)
  | int n => some n
  | _ => none

mutual

/-- Whether two values are equal: numbers by their amount, whatever their type, and maps and sets whatever their
order.  An object equals nothing, and neither does a float that is no number. -/
def same : Value → Value → Bool
  | null, null => true
  | float x, float y => x == y
  | float x, w => match w.asInt? with
    | some n => intEqFloat n x
    | none => false
  | text s, text t => s == t
  | literal s, literal t => s == t
  | classReference s, classReference t => s == t
  | list vs, list ws => sameItems vs ws
  | tuple vs, tuple ws => sameItems vs ws
  | dict es, dict fs => es.length == fs.length && sameEntries es fs
  | bytes b, bytes c => b == c
  | set vs, set ws => vs.length == ws.length && sameMembers vs ws
  | date d, date e => d == e
  | moment m, moment n => m.same n
  | v, float y => match v.asInt? with
    | some n => intEqFloat n y
    | none => false
  | v, w => match v.asInt?, w.asInt? with
    | some m, some n => m == n
    | _, _ => false

def sameItems : List Value → List Value → Bool
  | [], [] => true
  | v :: vs, w :: ws => same v w && sameItems vs ws
  | _, _ => false

def sameEntries : List (Value × Value) → List (Value × Value) → Bool
  | [], _ => true
  | (k, v) :: r, fs => (fs.any fun e => same k e.1 && same v e.2) && sameEntries r fs

def sameMembers : List Value → List Value → Bool
  | [], _ => true
  | v :: r, ws => (ws.any fun w => same v w) && sameMembers r ws

end

mutual

def unhashable? : Value → Option String
  | list _ => some "list"
  | dict _ => some "dict"
  | set _ => some "set"
  | again isMap => some (if isMap then "dict" else "list")
  | tuple vs => unhashableItem? vs
  | _ => none

def unhashableItem? : List Value → Option String
  | [] => none
  | v :: r => (unhashable? v).or (unhashableItem? r)

end

def insertEntry (k : Value) (a : α) : List (Value × α) → List (Value × α)
  | [] => [(k, a)]
  | (l, b) :: r => if same l k then (l, a) :: r else (l, b) :: insertEntry k a r

def ofEntries (es : List (Value × Value)) : Value :=
  dict (es.foldl (fun acc e => insertEntry e.1 e.2 acc) [])

def lookup (k : Value) (es : List (Value × α)) : Option α :=
  (es.find? fun e => same e.1 k).map Prod.snd

def lookupText (s : String) (es : List (Value × α)) : Option α := lookup (text s) es

def insertItem (items : List Value) (v : Value) : List Value :=
  if items.any (same v) then items else items ++ [v]

def distinct (items : List Value) : List Value := items.foldl insertItem []

def modulus : Nat := 0x1FFFFFFFFFFFFFFF

def seatNumber? (v : Value) : Option Nat :=
  let word (negative : Bool) (n : Nat) : Nat :=
    if n = 0 then 0 else if negative then 0x10000000000000000 - (if n = 1 then 2 else n) else n
  match v with
  | float x =>
    let negative := decide (Decimal.signBit ≤ x.toBits.toNat)
    if x.isNaN then none
    else if !x.isFinite then some (word negative 314159)
    else
      let b := Decimal.Binary.ofBits (x.toBits.toNat % Decimal.signBit)
      some (word negative (b.mantissa * Nat.pow 2 (b.exponent % 61).toNat % modulus))
  | v => v.asInt?.map fun n => word (n < 0) (n.natAbs % modulus)

/-- A set of the items of a list.  Numbers are in the order of their seats, anything else as it came. -/
def ofItems (items : List Value) (together : Bool := false) : Value :=
  let items := distinct items
  match items.mapM seatNumber? with
  | some ns => set ((if together then Seating.orderTogether else Seating.order) (items.zip ns))
  | none => set items

def items? : Value → Option (List Value)
  | list vs | tuple vs | set vs => some vs
  | dict es => some (es.map Prod.fst)
  | text s => some ((Text.characters s.toList).map fun c => text (.ofList c))
  | bytes b => some (b.map fun n => int n.toNat)
  | _ => none

mutual

def inspect : Value → String
  | null => "None"
  | bool b => if b then "True" else "False"
  | int n => toString n
  | float x => Decimal.ofFloat x
  | text s => Text.quoted s
  | literal s => "Literal(value=" ++ Text.quoted s ++ ")"
  | classReference s => "ClassReference(name=" ++ Text.quoted s ++ ")"
  | list vs => "[" ++ ", ".intercalate (inspectAll vs) ++ "]"
  | tuple [v] => "(" ++ inspect v ++ ",)"
  | tuple vs => "(" ++ ", ".intercalate (inspectAll vs) ++ ")"
  | dict es => "\x7b" ++ ", ".intercalate (inspectEntries es) ++ "\x7d"
  | bytes b => Text.quotedBytes b
  | set [] => "set()"
  | set vs => "\x7b" ++ ", ".intercalate (inspectAll vs) ++ "\x7d"
  | date d => d.inspect
  | moment m => m.inspect
  | again isMap => if isMap then "\x7b...\x7d" else "[...]"
  | foreign t => "<" ++ t ++ ">"

def inspectAll : List Value → List String
  | [] => []
  | v :: r => inspect v :: inspectAll r

def inspectEntries : List (Value × Value) → List String
  | [] => []
  | (k, v) :: r => (inspect k ++ ": " ++ inspect v) :: inspectEntries r

end

def display : Value → String
  | text s => s
  | literal s => s
  | classReference s => s ++ "::class"
  | date d => d.text
  | moment m => m.text
  | v => inspect v

mutual

def isLong : Value → Bool
  | int n => Decimal.isLong n
  | list vs | tuple vs | set vs => anyLong vs
  | dict es => anyLongEntry es
  | _ => false

def anyLong : List Value → Bool
  | [] => false
  | v :: r => isLong v || anyLong r

def anyLongEntry : List (Value × Value) → Bool
  | [] => false
  | (k, v) :: r => isLong k || isLong v || anyLongEntry r

end

def truthy : Value → Bool
  | null => false
  | bool b => b
  | int n => n ≠ 0
  | float x => x != 0
  | text s => !s.isEmpty
  | list vs => !vs.isEmpty
  | tuple vs => !vs.isEmpty
  | dict es => !es.isEmpty
  | bytes b => !b.isEmpty
  | set vs => !vs.isEmpty
  | _ => true

def text? : Value → Option String
  | text s => some s
  | _ => none

instance : Coe String Value := ⟨text⟩

instance : Coe Bool Value := ⟨bool⟩

@[simp] theorem same_text (s t : String) : same s t = (s == t) := by simp [same]

@[simp] theorem display_text (s : String) : display s = s := by simp [display]

end Value

end PhpScaffold
