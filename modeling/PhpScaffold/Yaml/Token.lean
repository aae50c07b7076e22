import PhpScaffold.Json.Token
import PhpScaffold.Yaml.Scalar

namespace PhpScaffold.Yaml

inductive Directive
  | version (major : Nat)
  | handle (name lead : String)
  | other
  deriving DecidableEq

inductive Token
  | directive (d : Directive)
  | documentStart
  | documentEnd
  | listStart
  | mapStart
  | blockEnd
  | flowListStart
  | flowListEnd
  | flowMapStart
  | flowMapEnd
  | item
  | separator
  | key
  | value
  | anchor (name : String)
  | alias (name : String)
  | tag (handle : Option String) (suffix : String)
  | scalar (text : String) (plain : Bool)
  | broken (why : Obstacle)
  | finish

structure Cursor where
  rest : List Char
  index : Nat := 0
  line : Nat := 0
  column : Nat := 0

def isBreak (c : Char) : Bool :=
  c = '\n' || c = '\r' || c = '\x85' || c = '\u2028' || c = '\u2029'

def atGap : List Char → Bool
  | [] => true
  | c :: _ => c = ' ' || c = '\t' || isBreak c

def atMarker : List Char → Bool
  | '-' :: '-' :: '-' :: r => atGap r
  | '.' :: '.' :: '.' :: r => atGap r
  | _ => false

namespace Cursor

def advance : Nat → Cursor → Cursor
  | 0, c => c
  | n + 1, c => match c.rest with
    | [] => c
    | x :: r =>
      if x = '\n' ∨ x = '\x85' ∨ x = '\u2028' ∨ x = '\u2029' ∨ (x = '\r' ∧ r.head? ≠ some '\n') then
        advance n ⟨r, c.index + 1, c.line + 1, 0⟩
      else if Text.isMark x then advance n { c with rest := r }
      else advance n ⟨r, c.index + 1, c.line, if x = '\uFEFF' then c.column else c.column + 1⟩

def goTo (c : Cursor) (rest : List Char) : Cursor := c.advance (c.rest.length - rest.length)

end Cursor

def takeBreak : List Char → Option (Char × List Char)
  | '\r' :: '\n' :: r => some ('\n', r)
  | c :: r => if isBreak c then some (if c = '\u2028' ∨ c = '\u2029' then c else '\n', r) else none
  | [] => none

def skipGap (inComment : Bool) : List Char → List Char × Bool
  | [] => ([], false)
  | c :: r =>
    if isBreak c then ((skipGap false r).1, true)
    else if inComment then skipGap true r
    else if c = ' ' then skipGap false r
    else if c = '#' then skipGap true r
    else (c :: r, false)

def takeBreaks (blanks : Char → Bool) : List Char → Option (List Char × List Char)
  | [] => some ([], [])
  | '\r' :: '\n' :: r => do
    if atMarker r then none
    let (bs, rest) ← takeBreaks blanks r
    return ('\n' :: bs, rest)
  | c :: r =>
    if blanks c then takeBreaks blanks r
    else if isBreak c then do
      if atMarker r then none
      let (bs, rest) ← takeBreaks blanks r
      return ((if c = '\u2028' ∨ c = '\u2029' then c else '\n') :: bs, rest)
    else some ([], c :: r)

def folded (first : Char) (more : List Char) : List Char :=
  if first ≠ '\n' then first :: more else if more.isEmpty then [' '] else more

def takeRun (inFlow : Bool) : List Char → List Char × List Char
  | [] => ([], [])
  | c :: r =>
    let stops := c = ' ' || c = '\t' || isBreak c ||
      (c = ':' && (atGap r || (inFlow && (r.head?.any fun d => ",[]\x7b\x7d".toList.contains d)))) ||
      (inFlow && ",?[]\x7b\x7d".toList.contains c)
    if stops then ([], c :: r) else (c :: (takeRun inFlow r).1, (takeRun inFlow r).2)

/-- The gap between two runs of a plain scalar as it is written, what follows it, and whether a line ended.  No gap
ends the scalar. -/
def takeGap (t : List Char) : Option (List Char × List Char × Bool) :=
  let blanks := t.takeWhile (· = ' ')
  let rest := t.dropWhile (· = ' ')
  match takeBreak rest with
  | some (b, rest) =>
    if atMarker rest then none
    else match takeBreaks (· = ' ') rest with
      | some (bs, rest) => some (folded b bs, rest, true)
      | none => none
  | none => if blanks.isEmpty then none else some (blanks, rest, false)

def takePlain (inFlow : Bool) (indent : Nat) (gap : List Char) (c : Cursor) : List Char × Cursor × Bool :=
  if c.rest.head? = some '#' then ([], c, false)
  else
    let (run, rest) := takeRun inFlow c.rest
    if run.isEmpty then ([], c, false)
    else
      let after := c.goTo rest
      match takeGap rest with
      | none => (gap ++ run, skipOver after, broken rest)
      | some (next, rest, broke) =>
        let there := after.goTo rest
        if rest.head? = some '#' || (!inFlow && there.column < indent) then (gap ++ run, there, broke)
        else if _h : rest.length < c.rest.length then
          let (more, last, b) := takePlain inFlow indent next { there with rest }
          (gap ++ run ++ more, last, if more.isEmpty then broke else b)
        else (gap ++ run, there, broke)
termination_by c.rest.length
where
  skipOver (c : Cursor) : Cursor :=
    match takeBreak (c.rest.dropWhile (· = ' ')) with
    | some (_, rest) =>
      let rest := if atMarker rest then rest else (skipGap false rest).1
      c.goTo rest
    | none => c
  broken (t : List Char) : Bool := (takeBreak (t.dropWhile (· = ' '))).isSome

def escapes : List (Char × Char) := [
  ('0', '\x00'), ('a', '\x07'), ('b', '\x08'), ('t', '\t'), ('\t', '\t'), ('n', '\n'), ('v', '\x0b'),
  ('f', '\x0c'), ('r', '\r'), ('e', '\x1b'), (' ', ' '), ('"', '"'), ('\\', '\\'), ('/', '/'), ('N', '\x85'),
  ('_', '\xa0'), ('L', '\u2028'), ('P', '\u2029')]

def escapeLengths : List (Char × Nat) := [('x', 2), ('u', 4), ('U', 8)]

def orMalformed (x : Option α) : Except Obstacle α :=
  match x with
  | some a => return a
  | none => throw .malformed

def takeEscape : List Char → Except Obstacle (List Char × List Char)
  | [] => throw .malformed
  | c :: r =>
    match escapes.lookup c, escapeLengths.lookup c with
    | some d, _ => return ([d], r)
    | none, some n => do
      let digits := r.take n
      if digits.length ≠ n then throw .malformed
      let code ← orMalformed (Json.hexNumber? digits)
      if 0x110000 ≤ code then throw (.fault (.noSuchCharacter code))
      return (Text.held code, r.drop n)
    | none, none =>
      match takeBreak (c :: r) with
      | some (_, rest) =>
        if atMarker rest then throw .malformed
        else orMalformed (takeBreaks (fun c => c = ' ' || c = '\t') rest)
      | none => throw .malformed

def takeQuoted (double : Bool) (t : List Char) : Except Obstacle (List Char × List Char) :=
  let continue' (part rest : List Char) : Except Obstacle (List Char × List Char) :=
    if _h : rest.length < t.length then
      (takeQuoted double rest).map fun (more, last) => (part ++ more, last)
    else throw .malformed
  match t with
  | [] => throw .malformed
  | '\'' :: '\'' :: r => if double then continue' ['\''] ('\'' :: r) else continue' ['\''] r
  | '\'' :: r => if double then continue' ['\''] r else return ([], r)
  | '"' :: r => if double then return ([], r) else continue' ['"'] r
  | '\\' :: r =>
    if double then
      match takeEscape r with
      | .ok (part, rest) => continue' part rest
      | .error o => throw o
    else continue' ['\\'] r
  | c :: r =>
    let isBlank c := c = ' ' || c = '\t'
    if isBlank c || isBreak c then
      let rest := t.dropWhile isBlank
      match takeBreak rest with
      | some (b, rest) =>
        if atMarker rest then throw .malformed
        else match takeBreaks isBlank rest with
          | some (bs, rest) => continue' (folded b bs) rest
          | none => throw .malformed
      | none => if rest.isEmpty then throw .malformed else continue' (t.takeWhile isBlank) rest
    else continue' [c] r
termination_by t.length

def isNameChar (c : Char) : Bool := c.isAlphanum || c = '-' || c = '_'

def atSpace (t : List Char) : Bool := atGap t && t.head? ≠ some '\t'

def takeHandle? : List Char → Option (String × List Char)
  | '!' :: r =>
    if r.head? = some ' ' then some ("!", r)
    else
      let name := r.takeWhile isNameChar
      match r.dropWhile isNameChar with
      | '!' :: rest => some ("!" ++ .ofList name ++ "!", rest)
      | _ => none
  | _ => none

def isTagChar (c : Char) : Bool := c.isAlphanum || "-;/?:@&=+$,_.!~*'()[]".toList.contains c

def takeEscapedBytes? : List Char → Option (List UInt8 × List Char)
  | '%' :: a :: b :: r => do
    let n ← Json.hexNumber? [a, b]
    let (bytes, rest) ← takeEscapedBytes? r
    return (n.toUInt8 :: bytes, rest)
  | '%' :: _ => none
  | r => some ([], r)

def takeTagChars? : List Char → Option (List Char × List Char)
  | [] => some ([], [])
  | c :: r =>
    if c = '%' then do
      let (bytes, rest) ← takeEscapedBytes? (c :: r)
      let text ← String.fromUTF8? ⟨bytes.toArray⟩
      if _h : rest.length < r.length + 1 then
        let (more, rest) ← takeTagChars? rest
        return (text.toList ++ more, rest)
      else none
    else if isTagChar c then (takeTagChars? r).map fun (more, rest) => (c :: more, rest)
    else some ([], c :: r)
termination_by t => t.length

def takeSuffix? (t : List Char) : Option (String × List Char) := do
  let (name, rest) ← takeTagChars? t
  if name.isEmpty then none else some (.ofList name, rest)

def takeTag? (t : List Char) : Option (Token × List Char) := do
  let (token, rest) ← match t with
    | '!' :: '<' :: r => do
      let (suffix, rest) ← takeSuffix? r
      some (Token.tag none suffix, ← Stamp.expect '>' rest)
    | '!' :: r =>
      if atGap r then some (Token.tag none plainTag, r)
      else do
        let hasHandle := (r.takeWhile fun c => c ≠ ' ' && !isBreak c).contains '!'
        let (handle, rest) ← if hasHandle then takeHandle? t else some ("!", r)
        let (suffix, rest) ← takeSuffix? rest
        some (Token.tag (some handle) suffix, rest)
    | _ => none
  if atSpace rest then some (token, rest) else none

def takeLineEnd? (t : List Char) : Option (List Char) :=
  if !atSpace t then none
  else
    let r := t.dropWhile (· = ' ')
    let r := if r.head? = some '#' then r.dropWhile (!isBreak ·) else r
    if r.isEmpty || r.head?.any isBreak then some r else none

def takeVersionPart (t : List Char) : Except Obstacle (Nat × List Char) :=
  let digits := t.takeWhile Char.isDigit
  if digits.isEmpty then throw .malformed
  else if Decimal.longest < digits.length then throw (.fault (.longText digits.length))
  else return (Decimal.natOfDigits digits, t.dropWhile Char.isDigit)

def dropBreak (t : List Char) : List Char := ((takeBreak t).map Prod.snd).getD t

def takeDirective (t : List Char) : Except Obstacle (Directive × List Char) := do
  let name := t.takeWhile isNameChar
  let rest := t.dropWhile isNameChar
  if name.isEmpty || !atSpace rest then throw .malformed
  let rest' := rest.dropWhile (· = ' ')
  match String.ofList name with
  | "YAML" =>
    let (major, r) ← takeVersionPart rest'
    let (_, r) ← takeVersionPart (← orMalformed (Stamp.expect '.' r))
    return (.version major, dropBreak (← orMalformed (takeLineEnd? r)))
  | "TAG" =>
    let (handle, r) ← orMalformed (takeHandle? rest')
    if r.head? ≠ some ' ' then throw .malformed
    let (lead, r) ← orMalformed (takeSuffix? (r.dropWhile (· = ' ')))
    return (.handle handle lead, dropBreak (← orMalformed (takeLineEnd? r)))
  | _ => return (.other, dropBreak (rest.dropWhile (!isBreak ·)))

inductive Chomping
  | strip
  | clip
  | keep
  deriving DecidableEq

def takeIndicators? (t : List Char) : Option (Chomping × Option Nat × List Char) :=
  let sign : List Char → Option (Chomping × List Char)
    | '+' :: r => some (.keep, r)
    | '-' :: r => some (.strip, r)
    | _ => none
  let digit : List Char → Option (Nat × List Char)
    | c :: r => if '1' ≤ c ∧ c ≤ '9' then some (c.toNat - 0x30, r) else none
    | [] => none
  match sign t with
  | some (chomp, r) => match digit r with
    | some (n, r) => some (chomp, some n, r)
    | none => some (chomp, none, r)
  | none => match digit t with
    | some (n, r) => match sign r with
      | some (chomp, r) => some (chomp, some n, r)
      | none => some (.clip, some n, r)
    | none => some (.clip, none, t)

def ignoreLine? (t : List Char) : Option (List Char) := do
  match ← takeLineEnd? t with
  | [] => some []
  | r => (takeBreak r).map Prod.snd

def measureIndent (column widest : Nat) : List Char → List Char × Nat × List Char
  | ' ' :: r => measureIndent (column + 1) (max widest (column + 1)) r
  | '\r' :: '\n' :: r =>
    let (bs, w, rest) := measureIndent 0 widest r
    ('\n' :: bs, w, rest)
  | c :: r =>
    if isBreak c then
      let (bs, w, rest) := measureIndent 0 widest r
      ((if c = '\u2028' ∨ c = '\u2029' then c else '\n') :: bs, w, rest)
    else ([], widest, c :: r)
  | [] => ([], widest, [])

def takeEmptyLines (indent column : Nat) : List Char → List Char × List Char × Nat
  | ' ' :: r => if column < indent then takeEmptyLines indent (column + 1) r else ([], ' ' :: r, column)
  | '\r' :: '\n' :: r =>
    let (bs, rest, c) := takeEmptyLines indent 0 r
    ('\n' :: bs, rest, c)
  | c :: r =>
    if isBreak c then
      let (bs, rest, k) := takeEmptyLines indent 0 r
      ((if c = '\u2028' ∨ c = '\u2029' then c else '\n') :: bs, rest, k)
    else ([], c :: r, column)
  | [] => ([], [], column)

def takeBlockLines (fold : Bool) (chomp : Chomping) (indent : Nat) (t : List Char) :
    List Char × List Char :=
  let line := t.takeWhile (!isBreak ·)
  let leadingText := !(t.head?.any fun c => c = ' ' || c = '\t')
  match takeBreak (t.dropWhile (!isBreak ·)) with
  | none => (line, [])
  | some (b, rest) =>
    let (bs, rest, column) := takeEmptyLines indent 0 rest
    if column = indent ∧ !rest.isEmpty then
      let joint :=
        if fold && b = '\n' && leadingText && !(rest.head?.any fun c => c = ' ' || c = '\t') then
          if bs.isEmpty then [' '] else []
        else [b]
      if _h : rest.length < t.length then
        let (more, last) := takeBlockLines fold chomp indent rest
        (line ++ joint ++ bs ++ more, last)
      else (line, rest)
    else
      let ending := match chomp with
        | .strip => []
        | .clip => [b]
        | .keep => b :: bs
      (line ++ ending, rest)
termination_by t.length

def takeBlock? (fold : Bool) (minimum : Nat) (t : List Char) : Option (List Char × List Char) := do
  let (chomp, increment, r) ← takeIndicators? t
  let r ← ignoreLine? r
  let (widest, start) := match increment with
    | some n => (minimum + n - 1, 0)
    | none => (max minimum (measureIndent 0 0 r).2.1, 0)
  let (bs, rest, column) := takeEmptyLines widest start r
  if column = widest ∧ !rest.isEmpty then
    let (text, last) := takeBlockLines fold chomp widest rest
    return (bs ++ text, last)
  else return (if chomp = .keep then bs else [], rest)

end PhpScaffold.Yaml
