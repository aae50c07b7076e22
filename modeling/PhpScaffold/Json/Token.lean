import PhpScaffold.Text.Surrogate
import PhpScaffold.Value

namespace PhpScaffold.Json

inductive Token
  | openList
  | closeList
  | openDict
  | closeDict
  | colon
  | comma
  | text (s : String)
  | scalar (v : Value)
  | finish

def Token.opensMap : Token → Bool
  | .openDict => true
  | _ => false

inductive Letter
  | char (c : Char)
  | escaped (n : Nat)

def isSpace (c : Char) : Bool := c = ' ' || c = '\t' || c = '\n' || c = '\r'

def hexValue? (c : Char) : Option Nat :=
  if c.isDigit then some (c.toNat - 0x30)
  else if 'a' ≤ c ∧ c ≤ 'f' then some (c.toNat - 0x57)
  else if 'A' ≤ c ∧ c ≤ 'F' then some (c.toNat - 0x37)
  else none

def hexNumber? (cs : List Char) : Option Nat :=
  cs.foldlM (fun n c => (hexValue? c).map (16 * n + ·)) 0

def simpleEscape? (c : Char) : Option Char :=
  if c = '"' ∨ c = '\\' ∨ c = '/' then some c
  else if c = 'b' then some '\x08'
  else if c = 'f' then some '\x0c'
  else if c = 'n' then some '\n'
  else if c = 'r' then some '\r'
  else if c = 't' then some '\t'
  else none

inductive Refusal
  | place (rest : List Char)
  | tooLong (digits : Nat)
  | tooDeep (isMap : Bool)

def takeText (opening : List Char) : List Char → Except (List Char) (List Letter × List Char)
  | [] => throw opening
  | '"' :: r => return ([], r)
  | ['\\'] => throw opening
  | '\\' :: 'u' :: a :: b :: c :: d :: e :: r => do
    match hexNumber? [a, b, c, d] with
    | none => throw ('u' :: a :: b :: c :: d :: e :: r)
    | some n =>
      let (letters, rest) ← takeText opening (e :: r)
      return (.escaped n :: letters, rest)
  | '\\' :: 'u' :: r => throw ('u' :: r)
  | '\\' :: c :: r => do
    match simpleEscape? c with
    | none => throw ('\\' :: c :: r)
    | some e =>
      let (letters, rest) ← takeText opening r
      return (.char e :: letters, rest)
  | c :: r => do
    if c.toNat < 0x20 then throw (c :: r)
    let (letters, rest) ← takeText opening r
    return (.char c :: letters, rest)

def joinLetters : List Letter → List Char
  | [] => []
  | .char c :: r => c :: joinLetters r
  | [.escaped n] => Text.held n
  | .escaped n :: .char c :: r => Text.held n ++ c :: joinLetters r
  | .escaped n :: .escaped m :: r =>
    if Text.isHigh n && Text.isLow m then Text.held (Text.joined n m) ++ joinLetters r
    else Text.held n ++ joinLetters (.escaped m :: r)

def takeDigits (t : List Char) : List Char × List Char :=
  (t.takeWhile Char.isDigit, t.dropWhile Char.isDigit)

def takeNumber? (t : List Char) : Option (Bool × List Char × List Char) := do
  let (whole, r) ← match t with
    | '0' :: r => some (['0'], r)
    | c :: r => if c.isDigit then some (c :: (takeDigits r).1, (takeDigits r).2) else none
    | [] => none
  let (fraction, r) := match r with
    | '.' :: s => if (takeDigits s).1.isEmpty then ([], r) else ('.' :: (takeDigits s).1, (takeDigits s).2)
    | _ => ([], r)
  let (power, r) := match r with
    | e :: s =>
      if e = 'e' ∨ e = 'E' then
        let (sign, s) := match s with
          | '-' :: s => (['-'], s)
          | '+' :: s => ([], s)
          | s => ([], s)
        if (takeDigits s).1.isEmpty then ([], r) else ('e' :: sign ++ (takeDigits s).1, (takeDigits s).2)
      else ([], r)
    | [] => ([], r)
  return (!fraction.isEmpty || !power.isEmpty, whole ++ fraction ++ power, r)

def numberValue (negative isFloat : Bool) (text : List Char) : Except Refusal Value :=
  if isFloat then
    let x := ((Decimal.ofUnsigned? text).map Decimal.Numeral.toFloat).getD 0
    return .float (if negative then -x else x)
  else if Decimal.longest < text.length then throw (.tooLong text.length)
  else
    let n : Int := Decimal.natOfDigits text
    return .int (if negative then -n else n)

def words : List (String × Value) := [
  ("null", .null), ("true", .bool true), ("false", .bool false),
  ("NaN", .float (0 / 0)), ("Infinity", .float (1 / 0)), ("-Infinity", .float (-1 / 0))]

def takeWord? (t : List Char) : Option (Value × List Char) :=
  words.findSome? fun (w, v) =>
    if w.toList.isPrefixOf t then some (v, t.drop w.length) else none

def takeScalar (t : List Char) : Except Refusal (Value × List Char) :=
  match takeWord? t with
  | some r => return r
  | none => do
    let (negative, digits) := match t with
      | '-' :: r => (true, r)
      | r => (false, r)
    match takeNumber? digits with
    | some (isFloat, text, rest) => return (← numberValue negative isFloat text, rest)
    | none => throw (.place t)

def takeToken : List Char → Except Refusal (Token × List Char)
  | [] => return (.finish, [])
  | '[' :: r => return (.openList, r)
  | ']' :: r => return (.closeList, r)
  | '\x7b' :: r => return (.openDict, r)
  | '\x7d' :: r => return (.closeDict, r)
  | ':' :: r => return (.colon, r)
  | ',' :: r => return (.comma, r)
  | '"' :: r => match takeText ('"' :: r) r with
    | .ok (letters, rest) => return (.text (.ofList (joinLetters letters)), rest)
    | .error place => throw (.place place)
  | t => do
    let (v, rest) ← takeScalar t
    return (.scalar v, rest)

structure Lexeme where
  start : List Char
  token : Except Refusal Token

/-- The lexemes up to the end or to the first that is no token.  A token that did not shorten the text would be none
either. -/
def lexemes (t : List Char) : List Lexeme :=
  match _h : t.dropWhile isSpace with
  | [] => [⟨[], .ok .finish⟩]
  | c :: r =>
    match takeToken (c :: r) with
    | .error why => [⟨c :: r, .error why⟩]
    | .ok (tok, rest) =>
      ⟨c :: r, .ok tok⟩ :: if rest.length ≤ r.length then lexemes rest else []
termination_by t.length
decreasing_by
  have : (t.dropWhile isSpace).length ≤ t.length := (List.dropWhile_sublist _).length_le
  simp_all
  omega

end PhpScaffold.Json
