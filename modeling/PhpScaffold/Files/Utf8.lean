namespace PhpScaffold.Utf8

inductive Defect
  | start
  | continuation
  | unfinished
  deriving DecidableEq

def Defect.message : Defect → String
  | start => "invalid start byte"
  | continuation => "invalid continuation byte"
  | unfinished => "unexpected end of data"

def isTail (b : UInt8) : Bool := 0x80 ≤ b && b < 0xC0

def shape? (b : UInt8) : Option (Nat × UInt8 × UInt8) :=
  if b < 0x80 then some (0, 0, 0)
  else if b < 0xC2 then none
  else if b < 0xE0 then some (1, 0x80, 0xBF)
  else if b < 0xF0 then some (2, if b = 0xE0 then 0xA0 else 0x80, if b = 0xED then 0x9F else 0xBF)
  else if b < 0xF5 then some (3, if b = 0xF0 then 0x90 else 0x80, if b = 0xF4 then 0x8F else 0xBF)
  else none

def checkTail (count : Nat) (low high : UInt8) : List UInt8 → Option (Nat × Defect)
  | rest => match count with
    | 0 => none
    | n + 1 => match rest with
      | [] => some (0, .unfinished)
      | b :: r =>
        if b < low || high < b then some (0, .continuation)
        else (checkTail n 0x80 0xBF r).map fun (k, d) => (k + 1, d)

/-- The first bad sequence: its position, its length and its defect.  `owed` bytes still belong to a character
that has been checked. -/
def fault? (position owed : Nat) : List UInt8 → Option (Nat × Nat × Defect)
  | [] => none
  | b :: r =>
    match owed with
    | n + 1 => fault? (position + 1) n r
    | 0 =>
      match shape? b with
      | none => some (position, 1, .start)
      | some (count, low, high) =>
        match checkTail count low high r with
        | some (k, d) => some (position, k + 1, d)
        | none => fault? (position + 1) count r

end PhpScaffold.Utf8
