import PhpScaffold.Value

namespace PhpScaffold.Json

inductive Encoding
  | utf8
  | utf16 (bigEndian : Bool)
  | utf32 (bigEndian : Bool)
  deriving DecidableEq

namespace Encoding

def marked? : List UInt8 → Option (Encoding × List UInt8)
  | 0x00 :: 0x00 :: 0xFE :: 0xFF :: r => some (utf32 true, r)
  | 0xFF :: 0xFE :: 0x00 :: 0x00 :: r => some (utf32 false, r)
  | 0xFE :: 0xFF :: r => some (utf16 true, r)
  | 0xFF :: 0xFE :: r => some (utf16 false, r)
  | 0xEF :: 0xBB :: 0xBF :: r => some (utf8, r)
  | _ => none

def ofZeros : List UInt8 → Encoding
  | [a, b] => if a = 0 then utf16 true else if b = 0 then utf16 false else utf8
  | a :: b :: c :: d :: _ =>
    if a = 0 then if b = 0 then utf32 true else utf16 true
    else if b = 0 then if c = 0 ∧ d = 0 then utf32 false else utf16 false
    else utf8
  | _ => utf8

def detect (bytes : List UInt8) : Encoding × List UInt8 := (marked? bytes).getD (ofZeros bytes, bytes)

def number (bytes : List UInt8) : Nat := bytes.foldl (fun n b => 256 * n + b.toNat) 0

def pairs? (bigEndian : Bool) : List UInt8 → Option (List Nat)
  | [] => some []
  | a :: b :: r => (pairs? bigEndian r).map (number (if bigEndian then [a, b] else [b, a]) :: ·)
  | [_] => none

def fours? (bigEndian : Bool) : List UInt8 → Option (List Nat)
  | [] => some []
  | a :: b :: c :: d :: r =>
    (fours? bigEndian r).map (number (if bigEndian then [a, b, c, d] else [d, c, b, a]) :: ·)
  | _ => none

def decode? (bytes : List UInt8) : Option String :=
  match detect bytes with
  | (utf8, r) => Text.ofBytes? ⟨r.toArray⟩
  | (utf16 bigEndian, r) => (pairs? bigEndian r).map fun ns => .ofList ((Text.joinPairs ns).flatMap Text.held)
  | (utf32 bigEndian, r) => do
    let ns ← fours? bigEndian r
    if ns.all (· < 0x110000) then some (.ofList (ns.flatMap Text.held)) else none

end Encoding

def escapes : List (Char × Char) :=
  [('"', '"'), ('\\', '\\'), ('\n', 'n'), ('\r', 'r'), ('\t', 't'), ('\x08', 'b'), ('\x0c', 'f')]

def escapeChar (c : Char) : List Char :=
  match escapes.lookup c with
  | some d => ['\\', d]
  | none => if c.toNat < 0x20 then '\\' :: 'u' :: Text.hex 4 c.toNat else [c]

def writeText (s : String) : String :=
  .ofList (('"' :: s.toList.flatMap escapeChar) ++ ['"'])

def writeFloat (x : Float) : String :=
  if x.isFinite then Decimal.ofFloat x else if x.isNaN then "NaN" else if x < 0 then "-Infinity" else "Infinity"

mutual

def write : Value → String
  | .null => "null"
  | .bool b => if b then "true" else "false"
  | .int n => toString n
  | .float x => writeFloat x
  | .text s => writeText s
  | .list vs => "[" ++ ",".intercalate (writeAll vs) ++ "]"
  | .tuple vs => "[" ++ ",".intercalate (writeAll vs) ++ "]"
  | .dict es => "\x7b" ++ ",".intercalate (writeEntries es) ++ "\x7d"
  | v => writeText v.display

def writeAll : List Value → List String
  | [] => []
  | v :: r => write v :: writeAll r

def writeEntries : List (Value × Value) → List String
  | [] => []
  | (k, v) :: r => (writeText k.display ++ ":" ++ write v) :: writeEntries r

end

end PhpScaffold.Json
