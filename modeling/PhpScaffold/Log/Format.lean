import PhpScaffold.Decimal.Places
import PhpScaffold.Value

namespace PhpScaffold.Log

inductive Size
  | fixed (n : Nat)
  | given

structure Place where
  key : Option String := none
  left : Bool := false
  plus : Bool := false
  blank : Bool := false
  alternate : Bool := false
  zero : Bool := false
  width : Option Size := none
  precision : Option Size := none
  kind : Char

inductive Piece
  | char (c : Char)
  | place (p : Place)

def takeKey? : Nat → List Char → Option (List Char × List Char)
  | _, [] => none
  | 0, ')' :: r => some ([], r)
  | depth, c :: r =>
    let depth := if c = '(' then depth + 1 else if c = ')' then depth - 1 else depth
    (takeKey? depth r).map fun (k, r) => (c :: k, r)

def takeSize (t : List Char) : Option Size × List Char :=
  match t with
  | '*' :: r => (some .given, r)
  | t =>
    let ds := t.takeWhile Char.isDigit
    (if ds.isEmpty then none else some (.fixed (Decimal.natOfDigits ds)), t.dropWhile Char.isDigit)

def isFlag (c : Char) : Bool := "-+ #0".toList.contains c

def takePlace? (t : List Char) : Option (Place × List Char) := do
  let (key, t) ← match t with
    | '(' :: r => do
      let (k, r) ← takeKey? 0 r
      some (some (String.ofList k), r)
    | t => some (none, t)
  let flags := t.takeWhile isFlag
  let (width, t) := takeSize (t.dropWhile isFlag)
  let (precision, t) := match t with
    | '.' :: r => ((takeSize r).1.or (some (.fixed 0)), (takeSize r).2)
    | t => (none, t)
  let t := match t with
    | 'h' :: r | 'l' :: r | 'L' :: r => r
    | t => t
  match t with
  | [] => none
  | kind :: r =>
    let on := flags.contains
    some ({ key, left := on '-', plus := on '+', blank := on ' ', alternate := on '#', zero := on '0'
            width, precision, kind }, r)

def pieces? : Nat → List Char → Option (List Piece)
  | _, [] => some []
  | 0, _ => none
  | n + 1, '%' :: '%' :: r => do return .char '%' :: (← pieces? n r)
  | n + 1, '%' :: r => do
    let (p, r) ← takePlace? r
    return .place p :: (← pieces? n r)
  | n + 1, c :: r => do return .char c :: (← pieces? n r)

inductive Supply
  | row (values : List Value)
  | named (entries : List (Value × Value)) (current : Option Value)

namespace Supply

def ofValues : List Value → Supply
  | [.dict (e :: es)] => named (e :: es) (some (.dict (e :: es)))
  | vs => row vs

def next? : Supply → Option (Value × Supply)
  | row (v :: vs) => some (v, row vs)
  | named es (some v) => some (v, named es none)
  | _ => none

def choose? (key : Option String) : Supply → Option Supply
  | named es current => match key with
    | none => some (named es current)
    | some k => (Value.lookupText k es).map fun v => named es (some v)
  | s => if key.isSome then none else some s

def isDone : Supply → Bool
  | row vs => vs.isEmpty
  | named _ _ => true

def widest : Nat := 0x7FFFFFFF

def size? (s : Supply) : Option Size → Option (Option Int × Supply)
  | none => some (none, s)
  | some (.fixed n) => if n ≤ widest then some (some n, s) else none
  | some .given => do
    let (v, s) ← s.next?
    let n ← v.asInt?
    if n.natAbs ≤ widest then some (some n, s) else none

end Supply

def whole? (v : Value) : Option Int :=
  match v with
  | .float x =>
    if x.isFinite then
      let b := Decimal.Binary.ofBits (x.toBits.toNat % Decimal.signBit)
      let n : Int := b.mantissa * Nat.pow 2 b.exponent.toNat / Nat.pow 2 (-b.exponent).toNat
      some (if x < 0 then -n else n)
    else none
  | v => v.asInt?

def real? (v : Value) : Option Float :=
  match v with
  | .float x => some x
  | v => do
    let n ← v.asInt?
    let x := Decimal.Numeral.toFloat ⟨n.natAbs, 0⟩
    if x.isFinite then some (if n < 0 then -x else x) else none

structure Written where
  sign : List Char := []
  lead : List Char := []
  body : List Char
  isNumber : Bool := true

def signOf (p : Place) (negative : Bool) : List Char :=
  if negative then ['-'] else if p.plus then ['+'] else if p.blank then [' '] else []

def writeWhole (p : Place) (base : Nat) (lead : List Char) (precision : Option Int) (n : Int) : Written :=
  let ds := Nat.toDigits base n.natAbs
  let ds := Decimal.zeros ((precision.getD 0).toNat - ds.length) ++ ds
  let upper := p.kind = 'X'
  { sign := signOf p (n < 0)
    lead := if p.alternate then lead else []
    body := if upper then ds.map Char.toUpper else ds }

def writeReal (p : Place) (precision : Option Int) (x : Float) : Written :=
  let bits := x.toBits.toNat
  let magnitude := bits % Decimal.signBit
  let places := (precision.getD 6).toNat
  let b := Decimal.Binary.ofBits magnitude
  let body :=
    if 0x7FF0000000000000 < magnitude then ['n', 'a', 'n']
    else if magnitude = 0x7FF0000000000000 then ['i', 'n', 'f']
    else if p.kind.toLower = 'f' then b.fixed p.alternate places
    else if p.kind.toLower = 'e' then b.exponential p.alternate places
    else b.general p.alternate (max places 1)
  { sign := signOf p (Decimal.signBit ≤ bits && magnitude ≤ 0x7FF0000000000000)
    body := if p.kind.isUpper then body.map Char.toUpper else body }

def writeText (precision : Option Int) (s : String) : Written :=
  { body := match precision with
      | some n => ((Text.characters s.toList).take n.toNat).flatten
      | none => s.toList
    isNumber := false }

def asciiText (s : String) : String :=
  .ofList <| s.toList.flatMap fun c =>
    let n := c.toNat
    if n < 0x7F then [c]
    else if n < 0x100 then '\\' :: 'x' :: Text.hex 2 n
    else if n < 0x10000 then '\\' :: 'u' :: Text.hex 4 n
    else '\\' :: 'U' :: Text.hex 8 n

def character? (v : Value) : Option String :=
  match v with
  | .text s => if Text.size s = 1 then some s else none
  | v => do
    let n ← v.asInt?
    if 0 ≤ n && n < 0x110000 then some (.ofList (Text.held n.toNat)) else none

def write? (p : Place) (precision : Option Int) (v : Value) : Option Written :=
  if v.isLong && !("xXo".toList.contains p.kind) then none
  else match p.kind with
    | 's' => some (writeText precision v.display)
    | 'r' => some (writeText precision v.inspect)
    | 'a' => some (writeText precision (asciiText v.inspect))
    | 'c' => (character? v).map (writeText none)
    | 'd' | 'i' | 'u' => (whole? v).map (writeWhole p 10 [] precision)
    | 'o' => v.asInt?.map (writeWhole p 8 ['0', 'o'] precision)
    | 'x' => v.asInt?.map (writeWhole p 16 ['0', 'x'] precision)
    | 'X' => v.asInt?.map (writeWhole p 16 ['0', 'X'] precision)
    | 'e' | 'E' | 'f' | 'F' | 'g' | 'G' => (real? v).map (writeReal p precision)
    | _ => none

def fit (p : Place) (width : Int) (w : Written) : List Char :=
  let all := w.sign ++ w.lead ++ w.body
  let room := width.natAbs - Text.count all
  if p.left || width < 0 then all ++ List.replicate room ' '
  else if p.zero && w.isNumber then w.sign ++ w.lead ++ (Decimal.zeros room ++ w.body)
  else List.replicate room ' ' ++ all

def fillPiece? (s : Supply) : Piece → Option (List Char × Supply)
  | .char c => some ([c], s)
  | .place p => do
    let s ← s.choose? p.key
    let (width, s) ← s.size? p.width
    let (precision, s) ← s.size? p.precision
    let (v, s) ← s.next?
    return (fit p (width.getD 0) (← write? p precision v), s)

def fill? (s : Supply) : List Piece → Option (List Char)
  | [] => if s.isDone then some [] else none
  | p :: ps => do
    let (t, s) ← fillPiece? s p
    return t ++ (← fill? s ps)

/-- The text of a message with its values.  Without values a message stands as it is. -/
def text? (message : String) (values : List Value) : Option String :=
  if values.isEmpty then some message
  else do
    let ps ← pieces? message.length message.toList
    return .ofList (← fill? (.ofValues values) ps)

end PhpScaffold.Log
