import PhpScaffold.Fault
import PhpScaffold.Text.Lowercase
import PhpScaffold.Yaml.Tag

namespace PhpScaffold.Yaml

inductive Obstacle
  | malformed
  | fault (cause : Fault)

namespace Scalar

def truth (s : String) : Except Fault Value :=
  let word := String.ofList (Text.lowercase s.toList)
  if truths.contains word then return .bool true
  else if falsities.contains word then return .bool false
  else throw (.noMember (.text word))

def signed (t : List Char) : Except Fault (Bool × List Char) :=
  if t.isEmpty then throw .noCharacter else return Decimal.splitSign t

def whole (s : String) : Except Fault Value := do
  let (negative, t) ← signed (withoutUnderscores s.toList)
  let read (base : Nat) (t : List Char) := readWhole base (.ofList t)
  let n ← match t with
    | ['0'] => pure 0
    | '0' :: 'b' :: r => read 2 r
    | '0' :: 'x' :: r => read 16 r
    | '0' :: _ => read 8 t
    | [] => throw .noCharacter
    | _ => (t.splitOn ':').foldlM (fun n g => return 60 * n + (← read 10 g)) 0
  return .int (if negative then -n else n)

def sexagesimal (groups : List Float) : Except Fault Float := do
  let (sum, _) ← groups.reverse.foldlM (fun (s : Float × Nat) g =>
    if (Float.ofNat s.2).isFinite then .ok (s.1 + g * Float.ofNat s.2, 60 * s.2) else .error .largeNumber) (0, 1)
  return sum

def unsigned (s : String) : Except Fault (Bool × List Char) :=
  signed (Text.lowercase (withoutUnderscores s.toList))

def noNumber : String := ".nan"

def isNoNumber (s : String) : Bool :=
  match unsigned s with
  | .ok (_, t) => .ofList t = noNumber
  | .error _ => false

def real (s : String) : Except Fault Value := do
  let (negative, t) ← unsigned s
  let x ← if .ofList t = ".inf" then pure (1 / 0)
    else if .ofList t = noNumber then pure (0 / 0)
    else match ← (t.splitOn ':').mapM fun g => readReal (.ofList g) with
      | [x] => pure x
      | xs => sexagesimal xs
  return .float (if negative then -x else x)

def micros (fraction : List Char) : Nat :=
  let ds := fraction.take 6
  Decimal.natOfDigits (ds ++ Decimal.zeros (6 - ds.length))

def time (s : String) : Except Fault Value :=
  match Stamp.read? (chomp s.toList) with
  | none => throw (.noOperation "NoneType" "groupdict")
  | some (t, _) =>
    let date : Date := ⟨t.year, t.month, t.day⟩
    match t.clock with
    | none => do
      date.check.mapError .time
      return .date date
    | some (hour, minute, second, fraction, ahead) => do
      let m : Moment := { date, hour, minute, second, micro := micros fraction, ahead }
      m.check.mapError .time
      return .moment m

def sextet? (c : Char) : Option Nat :=
  if c.isUpper then some (c.toNat - 65)
  else if c.isLower then some (c.toNat - 71)
  else if c.isDigit then some (c.toNat + 4)
  else if c = '+' then some 62
  else if c = '/' then some 63
  else none

/-- The bytes that sixes of bits make up, four at a time.  `left` are the bits not used yet, of which there are
`pending` sixes; padding ends the bytes where a group may end, and what is no six of bits does not count. -/
def sextets (pending pads left : Nat) : List Char → Option (List UInt8)
  | [] => if pending = 0 then some [] else none
  | c :: r =>
    if c = '=' then
      if 2 ≤ pending then if 4 ≤ pending + pads + 1 then some [] else sextets pending (pads + 1) left r
      else sextets pending pads left r
    else match sextet? c with
      | none => sextets pending pads left r
      | some n =>
        match pending with
        | 0 => sextets 1 0 n r
        | 1 => (sextets 2 0 (n % 16) r).map ((left * 4 + n / 16).toUInt8 :: ·)
        | 2 => (sextets 3 0 (n % 4) r).map ((left * 16 + n / 4).toUInt8 :: ·)
        | _ => (sextets 0 0 0 r).map ((left * 64 + n).toUInt8 :: ·)

def binary? (s : String) : Option (List UInt8) :=
  if s.toList.all (·.toNat < 128) then sextets 0 0 0 s.toList else none

def value (tag : Tag) (s : String) : Except Obstacle Value :=
  match tag with
  | .null => return .null
  | .bool => (truth s).mapError .fault
  | .int => (whole s).mapError .fault
  | .float => (real s).mapError .fault
  | .time => (time s).mapError .fault
  | .text => return .text s
  | .binary => match binary? s with
    | some b => return .bytes b
    | none => throw .malformed
  | _ => throw .malformed

end Scalar

end PhpScaffold.Yaml
