import PhpScaffold.Yaml.Token

namespace PhpScaffold.Yaml

structure Mark where
  before : Nat
  required : Bool
  index : Nat
  line : Nat
  column : Nat

structure Scanner where
  cursor : Cursor
  tokens : List Token := []
  columns : List Nat := []
  flow : Nat := 0
  marks : List (Nat × Mark) := []
  keyAllowed : Bool := true

namespace Scanner

def indent (s : Scanner) : Nat :=
  match s.columns with
  | [] => 0
  | c :: _ => c + 1

def emit (s : Scanner) (t : Token) : Scanner := { s with tokens := t :: s.tokens }

def take (s : Scanner) (n : Nat) (t : Token) : Scanner :=
  { s with cursor := s.cursor.advance n, tokens := t :: s.tokens }

def close (s : Scanner) (column : Nat) : Scanner :=
  if s.flow ≠ 0 then s
  else
    let closed := s.columns.takeWhile (column < ·)
    { s with
      tokens := List.replicate closed.length Token.blockEnd ++ s.tokens
      columns := s.columns.dropWhile (column < ·) }

def closeAll (s : Scanner) : Scanner :=
  if s.flow ≠ 0 then s
  else { s with tokens := List.replicate s.columns.length Token.blockEnd ++ s.tokens, columns := [] }

def dropMark? (s : Scanner) : Option Scanner :=
  match s.marks.lookup s.flow with
  | some m => if m.required then none else some { s with marks := s.marks.filter (·.1 ≠ s.flow) }
  | none => some s

def isStale (s : Scanner) (m : Mark) : Bool :=
  m.line ≠ s.cursor.line || 1024 < s.cursor.index - m.index

def dropStale? (s : Scanner) : Option Scanner :=
  if s.marks.any fun e => s.isStale e.2 && e.2.required then none
  else some { s with marks := s.marks.filter fun e => !s.isStale e.2 }

def setMark? (s : Scanner) : Option Scanner :=
  if s.keyAllowed then do
    let required := s.flow = 0 && s.columns.head? = some s.cursor.column
    let s ← s.dropMark?
    let m : Mark := ⟨s.tokens.length, required, s.cursor.index, s.cursor.line, s.cursor.column⟩
    return { s with marks := (s.flow, m) :: s.marks }
  else some s

def opens (s : Scanner) (column : Nat) : Bool :=
  match s.columns with
  | [] => true
  | c :: _ => c < column

def openBlock (s : Scanner) (column : Nat) (t : Token) : Scanner :=
  if s.opens column then { s with columns := column :: s.columns, tokens := t :: s.tokens } else s

def insertAt (s : Scanner) (before : Nat) (ts : List Token) : Scanner :=
  let n := s.tokens.length - before
  { s with tokens := s.tokens.take n ++ ts.reverse ++ s.tokens.drop n }

def item? (s : Scanner) : Option Scanner := do
  let s ← if s.flow = 0 then
      if s.keyAllowed then some (s.openBlock s.cursor.column .listStart) else none
    else some s
  return ({ (← s.dropMark?) with keyAllowed := true }).take 1 .item

def key? (s : Scanner) : Option Scanner := do
  let s ← if s.flow = 0 then
      if s.keyAllowed then some (s.openBlock s.cursor.column .mapStart) else none
    else some s
  return ({ (← s.dropMark?) with keyAllowed := s.flow = 0 }).take 1 .key

def value? (s : Scanner) : Option Scanner :=
  match s.marks.lookup s.flow with
  | some m =>
    let s := { s with marks := s.marks.filter (·.1 ≠ s.flow), keyAllowed := false }
    if s.flow = 0 ∧ s.opens m.column then
      some (({ s with columns := m.column :: s.columns }.insertAt m.before [.mapStart, .key]).take 1 .value)
    else some ((s.insertAt m.before [.key]).take 1 .value)
  | none => do
    let s ← if s.flow = 0 then
        if s.keyAllowed then some (s.openBlock s.cursor.column .mapStart) else none
      else some s
    return ({ (← s.dropMark?) with keyAllowed := s.flow = 0 }).take 1 .value

def endsName : List Char → Bool
  | [] => true
  | c :: r => atGap (c :: r) || "?:,]\x7d%@`".toList.contains c

def named? (s : Scanner) (make : String → Token) : Option Scanner := do
  let s ← s.setMark?
  let r := s.cursor.rest.drop 1
  let name := r.takeWhile isNameChar
  if name.isEmpty || !endsName (r.dropWhile isNameChar) then none
  return ({ s with keyAllowed := false }).take (name.length + 1) (make (.ofList name))

def tag? (s : Scanner) : Option Scanner := do
  let s ← s.setMark?
  let (token, rest) ← takeTag? s.cursor.rest
  return { s with cursor := s.cursor.goTo rest, keyAllowed := false, tokens := token :: s.tokens }

def directive (s : Scanner) : Except Obstacle Scanner := do
  let s ← orMalformed s.closeAll.dropMark?
  let (d, rest) ← takeDirective (s.cursor.rest.drop 1)
  return { s with cursor := s.cursor.goTo rest, keyAllowed := false, tokens := .directive d :: s.tokens }

def quoted (s : Scanner) (double : Bool) : Except Obstacle Scanner := do
  let s ← orMalformed s.setMark?
  let (text, rest) ← takeQuoted double (s.cursor.rest.drop 1)
  return { s with
    cursor := s.cursor.goTo rest, keyAllowed := false, tokens := .scalar (.ofList text) false :: s.tokens }

def plain? (s : Scanner) : Option Scanner := do
  let s ← s.setMark?
  let (text, cursor, broke) := takePlain (s.flow ≠ 0) s.indent [] s.cursor
  return { s with cursor, keyAllowed := broke, tokens := .scalar (.ofList text) true :: s.tokens }

def block? (s : Scanner) (fold : Bool) : Option Scanner := do
  let s ← s.dropMark?
  let (text, rest) ← takeBlock? fold (max s.indent 1) (s.cursor.rest.drop 1)
  return { s with
    cursor := s.cursor.goTo rest, keyAllowed := true, tokens := .scalar (.ofList text) false :: s.tokens }

def flowStart? (s : Scanner) (t : Token) : Option Scanner := do
  let s ← s.setMark?
  return ({ s with flow := s.flow + 1, keyAllowed := true }).take 1 t

def flowEnd? (s : Scanner) (t : Token) : Option Scanner := do
  let s ← s.dropMark?
  return ({ s with flow := s.flow - 1, keyAllowed := false }).take 1 t

def marker? (s : Scanner) (n : Nat) (t : Token) : Option Scanner := do
  let s ← s.closeAll.dropMark?
  return ({ s with keyAllowed := false }).take n t

def startsPlain (inFlow : Bool) : List Char → Bool
  | [] => false
  | c :: r =>
    !(atGap (c :: r) || "-?:,[]\x7b\x7d#&*!|>'\"%@`".toList.contains c) ||
      (!atGap r && (c = '-' || (!inFlow && (c = '?' || c = ':'))))

def token? (s : Scanner) (c : Char) (r : List Char) : Option Scanner :=
  let first := s.cursor.column = 0
  let inFlow := s.flow ≠ 0
  if c = '-' && first && atMarker s.cursor.rest then s.marker? 3 .documentStart
  else if c = '.' && first && atMarker s.cursor.rest then s.marker? 3 .documentEnd
  else if c = '[' then s.flowStart? .flowListStart
  else if c = '\x7b' then s.flowStart? .flowMapStart
  else if c = ']' then s.flowEnd? .flowListEnd
  else if c = '\x7d' then s.flowEnd? .flowMapEnd
  else if c = ',' then do return ({ (← s.dropMark?) with keyAllowed := true }).take 1 .separator
  else if c = '-' && atGap r then s.item?
  else if c = '?' && (inFlow || atGap r) then s.key?
  else if c = ':' && (inFlow || atGap r) then s.value?
  else if c = '*' then s.named? .alias
  else if c = '&' then s.named? .anchor
  else if c = '!' then s.tag?
  else if c = '|' && !inFlow then s.block? false
  else if c = '>' && !inFlow then s.block? true
  else if startsPlain inFlow s.cursor.rest then s.plain?
  else none

def token (s : Scanner) (c : Char) (r : List Char) : Except Obstacle Scanner :=
  if c = '\'' ∨ c = '"' then s.quoted (c = '"')
  else if c = '%' ∧ s.cursor.column = 0 then s.directive
  else orMalformed (s.token? c r)

def skip (s : Scanner) : Scanner :=
  let (rest, broke) := skipGap false s.cursor.rest
  { s with
    cursor := s.cursor.goTo rest
    keyAllowed := s.keyAllowed || (broke && s.flow = 0) }

def settled (s : Scanner) : Nat :=
  (s.marks.filter fun e => !s.isStale e.2).foldl (fun n e => min n e.2.before) s.tokens.length

/-- The tokens in order, with a reason behind them for which there are no more.  Nothing can be said of a token that
may still be a key, so the reason comes before it. -/
def broken (s : Scanner) (why : Obstacle) : List Token := s.tokens.reverse.take s.settled ++ [.broken why]

def run (s : Scanner) : List Token :=
  match s.skip.dropStale? with
  | none => s.broken .malformed
  | some t =>
    let t := t.close t.cursor.column
    match t.cursor.rest with
    | [] =>
      match t.closeAll.dropMark? with
      | some t => (Token.finish :: t.tokens).reverse
      | none => s.broken .malformed
    | c :: r =>
      match t.token c r with
      | .error why => s.broken why
      | .ok u => if _h : u.cursor.rest.length < s.cursor.rest.length then u.run else s.broken .malformed
termination_by s.cursor.rest.length

end Scanner

def isAllowed (c : Char) : Bool :=
  let n := c.toNat
  n = 9 || n = 10 || n = 13 || (0x20 ≤ n && n ≤ 0x7E) || n = 0x85 || (0xA0 ≤ n && n ≤ 0xFFFD) || 0x10000 ≤ n

def tokens (t : List Char) : List Token :=
  if t.all isAllowed then
    let start := if t.head? = some '\uFEFF' then t.drop 1 else t
    ({ cursor := { rest := start } } : Scanner).run
  else [.broken .malformed]

end PhpScaffold.Yaml
