import PhpScaffold.Text.Blank

namespace PhpScaffold.Text

/-- The characters that end a line.  A carriage return together with a line feed is one end. -/
def isLineBreak (c : Char) : Bool :=
  let n := c.toNat
  (0x0A ≤ n && n ≤ 0x0D) || (0x1C ≤ n && n ≤ 0x1E) || n == 0x85 || n == 0x2028 || n == 0x2029

def splitLines : List Char → List (List Char)
  | [] => []
  | '\r' :: '\n' :: r => [] :: splitLines r
  | c :: r =>
    if isLineBreak c then [] :: splitLines r
    else match splitLines r with
      | [] => [[c]]
      | l :: ls => (c :: l) :: ls

def lines (s : String) : List String :=
  (splitLines s.toList).map .ofList

def byteLines : List UInt8 → List (List UInt8)
  | [] => []
  | 13 :: 10 :: r => [] :: byteLines r
  | b :: r =>
    if b = 10 ∨ b = 13 then [] :: byteLines r
    else match byteLines r with
      | [] => [[b]]
      | l :: ls => (b :: l) :: ls

def indent (s : String) : String :=
  "\n".intercalate ((cut '\n' s).map fun l => if allBlank l then "" else "    " ++ l)

/-- Shifts a block to the right: its first line if `first`, its empty lines if `blank`, and every other line.  Lines
are those of `lines`, so any line break in the text leaves as a line feed. -/
def block (lead : String) (first blank : Bool) (s : String) : String :=
  match lines (s ++ "\n") with
  | [] => lead
  | l :: ls => "\n".intercalate ((if first then lead ++ l else l) ::
      ls.map fun m => if m.isEmpty && !blank then m else lead ++ m)

@[simp] theorem splitLines_nil : splitLines [] = [] := by simp [splitLines]

end PhpScaffold.Text

namespace PhpScaffold.Lint

def unifyBreaks : List Char → List Char
  | [] => []
  | '\r' :: '\n' :: r => '\n' :: unifyBreaks r
  | '\r' :: r => '\n' :: unifyBreaks r
  | c :: r => c :: unifyBreaks r

def opensBlock (line : String) : Bool := line.toList.getLast? = some '\x7b'

def closesBlock (line : String) : Bool := Text.trimStart Text.isBlank line = "\x7d"

def keep (kept : List String) (line : String) : List String :=
  if line.isEmpty then
    match kept with
    | [] => [""]
    | last :: _ => if last.isEmpty || opensBlock last then kept else "" :: kept
  else
    match kept with
    | "" :: r => if closesBlock line then line :: r else line :: kept
    | _ => line :: kept

def lines (source : String) : List String :=
  let trimmed := ((Text.cut '\n' (.ofList (unifyBreaks source.toList)))).map (Text.trimEnd Text.isBlank)
  ((trimmed.foldl keep []).dropWhile (·.isEmpty)).reverse

def lint (source : String) : String :=
  "\n".intercalate (lines source) ++ "\n"

end PhpScaffold.Lint
