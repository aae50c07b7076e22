import PhpScaffold.Decimal.Text

namespace PhpScaffold.Decimal

def roundDiv (num den : Nat) : Nat :=
  let (q, r) := (num / den, num % den)
  if den < 2 * r || (2 * r = den && q % 2 = 1) then q + 1 else q

def Binary.scaled (b : Binary) (places : Int) : Nat :=
  roundDiv (b.mantissa * Nat.pow 2 b.exponent.toNat * Nat.pow 10 places.toNat)
    (Nat.pow 2 (-b.exponent).toNat * Nat.pow 10 (-places).toNat)

def padded (size n : Nat) : List Char :=
  let ds := Nat.toDigits 10 n
  zeros (size - ds.length) ++ ds

def withPoint (kept : Bool) (places : Nat) (ds : List Char) : List Char :=
  let whole := ds.length - places
  ds.take whole ++ if places = 0 && !kept then [] else '.' :: ds.drop whole

def Binary.fixed (b : Binary) (kept : Bool) (places : Nat) : List Char :=
  withPoint kept places (padded (places + 1) (b.scaled places))

def Binary.rounded (b : Binary) (places : Nat) : Int × Nat :=
  if b.mantissa = 0 then (0, 0)
  else
    let e := b.magnitude - 1
    let n := b.scaled (places - e)
    if n < Nat.pow 10 (places + 1) then (e, n) else (e + 1, b.scaled (places - e - 1))

def Binary.exponential (b : Binary) (kept : Bool) (places : Nat) : List Char :=
  let (e, n) := b.rounded places
  let power := Nat.toDigits 10 e.natAbs
  withPoint kept places (padded (places + 1) n) ++ 'e' :: (if e < 0 then '-' else '+') ::
    (zeros (2 - power.length) ++ power)

def dropNoughts (ds : List Char) : List Char :=
  if ds.contains '.' then
    let ds := Text.dropEndWhile (· = '0') ds
    if ds.getLast? = some '.' then ds.dropLast else ds
  else ds

def Binary.general (b : Binary) (kept : Bool) (digits : Nat) : List Char :=
  let (e, _) := b.rounded (digits - 1)
  if -4 ≤ e ∧ e < digits then
    let text := b.fixed kept (digits - 1 - e).toNat
    if kept then text else dropNoughts text
  else
    let text := b.exponential kept (digits - 1)
    if kept then text
    else dropNoughts (text.takeWhile (· ≠ 'e')) ++ text.dropWhile (· ≠ 'e')

end PhpScaffold.Decimal
