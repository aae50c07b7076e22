import PhpScaffold.Decimal.Read

namespace PhpScaffold.Yaml

inductive Tag
  | null
  | bool
  | int
  | float
  | binary
  | time
  | text
  | list
  | map
  | set
  | entries
  | merge
  | value
  | other
  deriving DecidableEq

namespace Tag

def space : String := "tag:yaml.org,2002:"

def known : List (String × Tag) := [
  ("null", null), ("bool", bool), ("int", int), ("float", float), ("binary", binary), ("timestamp", time),
  ("str", text), ("seq", list), ("map", map), ("set", set), ("omap", entries), ("pairs", entries),
  ("merge", merge), ("value", value)]

def ofText (s : String) : Tag := ((known.map fun e => (space ++ e.1, e.2)).lookup s).getD other

end Tag

def plainTag : String := "!"

def truths : List String := ["yes", "Yes", "YES", "true", "True", "TRUE", "on", "On", "ON"]

def falsities : List String := ["no", "No", "NO", "false", "False", "FALSE", "off", "Off", "OFF"]

def nothings : List String := ["", "~", "null", "Null", "NULL"]

def mergeWord : String := "<<"

def valueWord : String := "="

def withoutUnderscores (t : List Char) : List Char := t.filter (· ≠ '_')

def isDigitOrUnderscore (c : Char) : Bool := c.isDigit || c = '_'

def isGroup (t : List Char) : Bool :=
  match t with
  | [c] => c.isDigit
  | [c, d] => '0' ≤ c && c ≤ '5' && d.isDigit
  | _ => false

def isUnsignedInt (t : List Char) : Bool :=
  let isNumeral (isDigit : Char → Bool) (r : List Char) := !r.isEmpty && r.all fun c => isDigit c || c = '_'
  match t with
  | '0' :: 'b' :: r => isNumeral (fun c => c = '0' || c = '1') r
  | '0' :: 'x' :: r => isNumeral (fun c => c.isDigit || ('a' ≤ c && c ≤ 'f') || ('A' ≤ c && c ≤ 'F')) r
  | '0' :: r => r.all fun c => ('0' ≤ c && c ≤ '7') || c = '_'
  | c :: r =>
    c.isDigit && match (c :: r).splitOn ':' with
      | head :: groups => head.all isDigitOrUnderscore && groups.all isGroup
      | [] => false
  | [] => false

def isPower : List Char → Bool
  | [] => true
  | e :: s :: d :: r => (e = 'e' || e = 'E') && (s = '-' || s = '+') && (d :: r).all Char.isDigit
  | _ => false

def isUnsignedFloat (t : List Char) : Bool :=
  let front := t.takeWhile (· ≠ '.')
  match t.dropWhile (· ≠ '.') with
  | [] => false
  | _ :: r =>
    let fraction := r.takeWhile isDigitOrUnderscore
    let power := r.dropWhile isDigitOrUnderscore
    match front with
    | [] => fraction.head?.any Char.isDigit && isPower power
    | c :: _ =>
      c.isDigit && match front.splitOn ':' with
        | [_] => front.all isDigitOrUnderscore && isPower power
        | head :: groups => head.all isDigitOrUnderscore && groups.all isGroup && power.isEmpty
        | [] => false

def isFloat (t : List Char) : Bool :=
  let (_, r) := Decimal.splitSign t
  [".inf", ".Inf", ".INF"].contains (String.ofList r) || [".nan", ".NaN", ".NAN"].contains (String.ofList t) ||
    (isUnsignedFloat r && (r.head? ≠ some '.' || r.length = t.length))

structure Stamp where
  year : Nat
  month : Nat
  day : Nat
  clock : Option (Nat × Nat × Nat × List Char × Option Int) := none

namespace Stamp

def digits (least most : Nat) (t : List Char) : Option (Nat × Nat × List Char) :=
  let ds := (t.take most).takeWhile Char.isDigit
  if ds.length < least then none else some (Decimal.natOfDigits ds, ds.length, t.drop ds.length)

def expect (c : Char) (t : List Char) : Option (List Char) :=
  if t.head? = some c then some t.tail else none

def isGap (c : Char) : Bool := c = ' ' || c = '\t'

def ahead? (t : List Char) : Option (Option Int) :=
  match t.dropWhile isGap with
  | [] => if t.isEmpty then some none else none
  | ['Z'] => some (some 0)
  | c :: r =>
    if c ≠ '-' ∧ c ≠ '+' then none
    else do
      let (hours, _, r) ← digits 1 2 r
      let minutes ← match r with
        | [] => some 0
        | r => do
          let (minutes, _, r) ← digits 2 2 (← expect ':' r)
          if r.isEmpty then some minutes else none
      let seconds : Int := hours * 3600 + minutes * 60
      return some (if c = '-' then -seconds else seconds)

def clock? (t : List Char) : Option (Nat × Nat × Nat × List Char × Option Int) := do
  let r ← match t with
    | 'T' :: r | 't' :: r => some r
    | c :: r => if isGap c then some (r.dropWhile isGap) else none
    | [] => none
  let (hour, _, r) ← digits 1 2 r
  let (minute, _, r) ← digits 2 2 (← expect ':' r)
  let (second, _, r) ← digits 2 2 (← expect ':' r)
  let (fraction, r) := match r with
    | '.' :: r => (r.takeWhile Char.isDigit, r.dropWhile Char.isDigit)
    | r => ([], r)
  return (hour, minute, second, fraction, ← ahead? r)

def read? (t : List Char) : Option (Stamp × Bool) := do
  let (year, _, r) ← digits 4 4 t
  let (month, m, r) ← digits 1 2 (← expect '-' r)
  let (day, d, r) ← digits 1 2 (← expect '-' r)
  let clock ← if r.isEmpty then some none else (clock? r).map some
  return ({ year, month, day, clock }, m = 2 && d = 2)

end Stamp

def isTime (t : List Char) : Bool := (Stamp.read? t).any fun (s, full) => full || s.clock.isSome

def chomp (t : List Char) : List Char := if t.getLast? = some '\n' then t.dropLast else t

def Tag.ofPlain (s : String) : Tag :=
  let t := chomp s.toList
  let word := String.ofList t
  if truths.contains word || falsities.contains word then bool
  else if isFloat t then float
  else if isUnsignedInt (Decimal.splitSign t).2 then int
  else if word = mergeWord then merge
  else if nothings.contains word && (s.isEmpty || !word.isEmpty) then null
  else if isTime t then time
  else if word = valueWord then value
  else if word = "!" ∨ word = "&" ∨ word = "*" then other
  else text

end PhpScaffold.Yaml
