import PhpScaffold.Decimal.Text
import PhpScaffold.Text.Blank

namespace PhpScaffold.Decimal

inductive Unreadable
  | form
  | tooLong (digits : Nat)
  deriving DecidableEq

/-- The most decimal digits a whole number may be written with. -/
@[irreducible] def longest : Nat := 4300

def isLong (n : Int) : Bool := Nat.pow 10 longest ≤ n.natAbs

def plainChar (c : Char) : Char :=
  if c.toNat < 127 then c
  else if Text.isBlank c then ' '
  else match Text.digit? c with
    | some d => .ofNat (0x30 + d)
    | none => '?'

def isSpace (c : Char) : Bool := c = ' ' || (9 ≤ c.toNat && c.toNat ≤ 13)

def plain (s : String) : List Char := Text.trimBoth isSpace (s.toList.map plainChar)

def splitSign : List Char → Bool × List Char
  | '-' :: r => (true, r)
  | '+' :: r => (false, r)
  | r => (false, r)

def digitValue (c : Char) : Nat :=
  if c.isDigit then c.toNat - 0x30
  else if c.isLower then c.toNat - 0x57
  else if c.isUpper then c.toNat - 0x37
  else 99

def baseLetter? : Nat → Option Char
  | 2 => some 'b'
  | 8 => some 'o'
  | 16 => some 'x'
  | _ => none

def dropBase (base : Nat) (t : List Char) : List Char :=
  match t with
  | '0' :: c :: r =>
    if some c.toLower = baseLetter? base then
      match r with
      | '_' :: r => r
      | r => r
    else t
  | t => t

def unsigned (base : Nat) (t : List Char) : Except Unreadable Nat :=
  let isPart c := c = '_' || digitValue c < base
  let groups := (t.takeWhile isPart).splitOn '_'
  let digits := groups.flatten
  if groups.any List.isEmpty then throw .form
  else if base = 10 && longest < digits.length then throw (.tooLong digits.length)
  else if t.all isPart then return digits.foldl (fun n c => base * n + digitValue c) 0
  else throw .form

def readWhole (base : Nat) (s : String) : Except Unreadable Int :=
  let (negative, t) := splitSign (plain s)
  (unsigned base (dropBase base t)).map fun n => if negative then -(n : Int) else n

def withoutUnderscores? (last : Char) : List Char → Option (List Char)
  | [] => some []
  | '_' :: r =>
    if last.isDigit && r.head?.any Char.isDigit then withoutUnderscores? '_' r else none
  | c :: r => (withoutUnderscores? c r).map (c :: ·)

def readReal? (s : String) : Option Float := do
  let (negative, t) := splitSign (← withoutUnderscores? ' ' (plain s))
  let x ← match String.ofList (t.map Char.toLower) with
    | "inf" | "infinity" => some (1 / 0)
    | "nan" => some (0 / 0)
    | _ => (ofUnsigned? t).map Numeral.toFloat
  return if negative then -x else x

end PhpScaffold.Decimal
