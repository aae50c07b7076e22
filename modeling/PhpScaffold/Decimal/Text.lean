import PhpScaffold.Decimal.Shortest
import PhpScaffold.Text.Blank

namespace PhpScaffold.Decimal

def zeros (n : Nat) : List Char := .replicate n '0'

def positional (ds : List Char) (point : Int) : List Char :=
  if point ≤ 0 then '0' :: '.' :: (zeros (-point).toNat ++ ds)
  else
    let p := point.toNat
    if ds.length ≤ p then ds ++ zeros (p - ds.length) ++ ['.', '0']
    else ds.take p ++ '.' :: ds.drop p

def scientific (ds : List Char) (point : Int) : List Char :=
  let e := point - 1
  let size := Nat.toDigits 10 e.natAbs
  let mantissa := match ds with
    | [] => ['0']
    | [d] => [d]
    | d :: r => d :: '.' :: r
  mantissa ++ 'e' :: (if e < 0 then '-' else '+') :: (zeros (2 - size.length) ++ size)

def Numeral.write (d : Numeral) : List Char :=
  let all := Nat.toDigits 10 d.digits
  let point := d.exponent + all.length
  let ds := Text.dropEndWhile (· = '0') all
  if -4 < point ∧ point ≤ 16 then positional ds point else scientific ds point

def ofFloat (x : Float) : String :=
  let bits := x.toBits.toNat
  let magnitude := bits % signBit
  let sign := if signBit ≤ bits then "-" else ""
  if 0x7FF0000000000000 < magnitude then "nan"
  else if magnitude = 0x7FF0000000000000 then sign ++ "inf"
  else if magnitude = 0 then sign ++ "0.0"
  else sign ++ .ofList (Binary.ofBits magnitude).shortest.write

def natOfDigits (ds : List Char) : Nat :=
  ds.foldl (fun n c => 10 * n + (c.toNat - '0'.toNat)) 0

/-- The double nearest to `digits · 10 ^ exponent`.  Beyond the range of doubles no power is computed. -/
def Numeral.toFloat (d : Numeral) : Float :=
  let size := (countDigits d.digits : Int) + d.exponent
  if d.digits = 0 then 0
  else if 400 < size then 1 / 0
  else if size < -400 then 0
  else .ofScientific d.digits (d.exponent < 0) d.exponent.natAbs

def ofUnsigned? (t : List Char) : Option Numeral :=
  let whole := t.takeWhile Char.isDigit
  let (fraction, rest) := match t.dropWhile Char.isDigit with
    | '.' :: r => (r.takeWhile Char.isDigit, r.dropWhile Char.isDigit)
    | r => ([], r)
  let mantissa := natOfDigits (whole ++ fraction)
  let build (e : Int) : Numeral := ⟨mantissa, e - fraction.length⟩
  if whole.isEmpty && fraction.isEmpty then none
  else match rest with
    | [] => some (build 0)
    | e :: r =>
      if e ≠ 'e' ∧ e ≠ 'E' then none
      else
        let (negative, ds) := match r with
          | '-' :: ds => (true, ds)
          | '+' :: ds => (false, ds)
          | ds => (false, ds)
        if ds.isEmpty || !ds.all Char.isDigit then none
        else some (build (if negative then -(natOfDigits ds : Int) else natOfDigits ds))

end PhpScaffold.Decimal
