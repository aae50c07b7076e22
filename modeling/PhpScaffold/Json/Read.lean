import PhpScaffold.Fault
import PhpScaffold.Json.Token

namespace PhpScaffold.Json

inductive Frame
  | list (items : List Value)
  | dict (entries : List (Value × Value)) (key : String)

inductive Expect
  | value
  | valueOrClose
  | key
  | keyOrClose
  | colon
  | separator
  deriving DecidableEq

structure Machine where
  stack : List Frame := []
  expect : Expect := .value
  result : Option Value := none

namespace Machine

def give (m : Machine) (v : Value) : Machine :=
  match m.stack with
  | [] => { m with expect := .separator, result := some v }
  | .list items :: r => { m with stack := .list (v :: items) :: r, expect := .separator }
  | .dict es key :: r =>
    { m with stack := .dict (Value.insertEntry (.text key) v es) key :: r, expect := .separator }

def wantsValue (m : Machine) : Bool := m.expect = .value || m.expect = .valueOrClose

def step? (m : Machine) : Token → Option Machine
  | .scalar v => if m.wantsValue then some (m.give v) else none
  | .text s =>
    if m.wantsValue then some (m.give (.text s))
    else if m.expect = .key ∨ m.expect = .keyOrClose then
      match m.stack with
      | .dict es _ :: r => some { m with stack := .dict es s :: r, expect := .colon }
      | _ => none
    else none
  | .openList => if m.wantsValue then some { m with stack := .list [] :: m.stack, expect := .valueOrClose } else none
  | .openDict => if m.wantsValue then some { m with stack := .dict [] "" :: m.stack, expect := .keyOrClose } else none
  | .closeList =>
    match m.stack with
    | .list items :: r =>
      if m.expect = .valueOrClose ∨ m.expect = .separator then
        some ({ m with stack := r } |>.give (.list items.reverse))
      else none
    | _ => none
  | .closeDict =>
    match m.stack with
    | .dict es _ :: r =>
      if m.expect = .keyOrClose ∨ m.expect = .separator then some ({ m with stack := r } |>.give (.dict es))
      else none
    | _ => none
  | .colon => if m.expect = .colon then some { m with expect := .value } else none
  | .comma =>
    if m.expect = .separator then
      match m.stack with
      | [] => none
      | .list _ :: _ => some { m with expect := .value }
      | .dict _ _ :: _ => some { m with expect := .key }
    else none
  | .finish => none

def deepest : Nat := 990

def isTooDeep (m : Machine) : Bool := deepest < m.stack.length

/-- Reads lexemes to the end.  Where no text may stand, one that goes wrong is out of place from its start, and where no
value may stand, so is a number that is too long. -/
def run (m : Machine) : List Lexeme → Except Refusal Value
  | [] => throw (.place [])
  | l :: ls =>
    match l.token with
    | .error (.place place) => throw (.place (if (m.step? (.text "")).isSome then place else l.start))
    | .error why => throw (if m.wantsValue then why else .place l.start)
    | .ok .finish => match m.stack, m.result with
      | [], some v => return v
      | _, _ => throw (.place l.start)
    | .ok t => match m.step? t with
      | some m => if m.isTooDeep then throw (.tooDeep t.opensMap) else m.run ls
      | none => throw (.place l.start)

end Machine

inductive Unreadable
  | place (index : Nat)
  | other (cause : Fault)

def read (s : String) : Except Unreadable Value :=
  let t := s.toList
  (({} : Machine).run (lexemes t)).mapError fun
    | .place rest => .place (Text.count t - Text.count rest)
    | .tooLong digits => .other (.longText digits)
    | .tooDeep isMap => .other (.tooDeep (if isMap then .map else .list))

def read? (s : String) : Option Value := (read s).toOption

end PhpScaffold.Json
