/-! The shortest decimal that reads back as a given binary fraction.  A finite double is `m · 2 ^ q`, and
the reals that round to it form an interval around it.  For one digit, two digits, and so on, the two
neighbours of the number on that decimal grid are tried; the first grid with a hit wins, of two hits the
nearer one, and of two equally near ones the even one. -/

namespace PhpScaffold.Decimal

structure Numeral where
  digits : Nat
  exponent : Int
  deriving DecidableEq

/-- A positive number `mantissa · 2 ^ exponent`, and whether the next smaller one of its format is only half
as far away as the next larger one. -/
structure Binary where
  mantissa : Nat
  exponent : Int
  atPower : Bool
  deriving DecidableEq

def hiddenBit : Nat := 0x10000000000000

def signBit : Nat := 0x8000000000000000

def Binary.ofBits (bits : Nat) : Binary :=
  let e : Nat := bits / hiddenBit % 2048
  let f := bits % hiddenBit
  if e = 0 then ⟨f, -1074, false⟩ else ⟨f + hiddenBit, (e : Int) - 1075, f = 0 && 1 < e⟩

def countDigits (n : Nat) : Nat :=
  (Nat.toDigits 10 n).length

namespace Binary

def numerator (b : Binary) (x : Nat) : Nat :=
  x * Nat.pow 2 (b.exponent - 2).toNat

def denominator (b : Binary) : Nat :=
  Nat.pow 2 (2 - b.exponent).toNat

def magnitude (b : Binary) : Int :=
  let num := b.numerator (4 * b.mantissa)
  let den := b.denominator
  if den ≤ num then countDigits (num / den) else 1 - (countDigits ((den - 1) / num) : Int)

def onGrid? (b : Binary) (k : Int) : Option Numeral :=
  let up := Nat.pow 10 (-k).toNat
  let den := b.denominator * Nat.pow 10 k.toNat
  let scaled x := b.numerator x * up
  let middle := scaled (4 * b.mantissa)
  let low := scaled (4 * b.mantissa - if b.atPower then 1 else 2)
  let high := scaled (4 * b.mantissa + 2)
  let hits d := if b.mantissa % 2 = 0 then low ≤ d * den && d * den ≤ high else low < d * den && d * den < high
  let floor := middle / den
  let rest := middle % den
  match hits floor, hits (floor + 1) with
  | false, false => none
  | true, false => some ⟨floor, k⟩
  | false, true => some ⟨floor + 1, k⟩
  | true, true =>
    if 2 * rest < den ∨ (2 * rest = den ∧ floor % 2 = 0) then some ⟨floor, k⟩ else some ⟨floor + 1, k⟩

/-- Seventeen digits always suffice for a double, so the last resort is never taken. -/
def shortest (b : Binary) : Numeral :=
  ((List.range 17).findSome? fun n => b.onGrid? (b.magnitude - (n + 1 : Nat))).getD ⟨0, 0⟩

end Binary

end PhpScaffold.Decimal
