import PhpScaffold.Template
import PhpScaffold.Name
import PhpScaffold.Text.Blank

namespace PhpScaffold.Template

inductive Word
  | name (s : String)
  | value (v : Value)
  | mark (c : Char)

inductive Flaw
  | malformed
  | noFilter (name : String)
  | roundTaken

def Flaw.fault : Flaw → Fault
  | malformed => .template "malformed template"
  | noFilter name => .meaningless ("No filter named " ++ Text.quoted name ++ ".")
  | roundTaken => .meaningless "Can't assign to special loop variable in for-loop target"

def isLetter (c : Char) : Bool :=
  let n := c.toNat
  Name.isHead c || n == 0xAA || n == 0xB5 || n == 0xBA ||
    (0xC0 ≤ n && n != 0xD7 && n != 0xF7 && !(0x2000 ≤ n && n < 0x2070) && !(0x20A0 ≤ n && n < 0x2100) &&
      !(0x2190 ≤ n && n < 0x2C00) && !(0x2E00 ≤ n && n < 0x2E80) && !(0x3000 ≤ n && n < 0x3005) &&
      !(0x3008 ≤ n && n < 0x3021) && !(0xE000 ≤ n && n < 0xF900) && !(0xFE00 ≤ n && n < 0xFE70) &&
      !(0x1F000 ≤ n && n < 0x20000) && !Text.isDigit c && !Text.isBlank c && Text.isPrintable c)

def isNamePart (c : Char) : Bool := isLetter c || Text.isDigit c

def isDigitPart (c : Char) : Bool := c.isDigit || c = '_'

def whole? (t : List Char) : Option Int :=
  let digits := t.filter Char.isDigit
  if digits.head? = some '0' && digits.any (· ≠ '0') then none
  else (Decimal.readWhole 10 (.ofList t)).toOption

theorem length_dropWhile_le (p : Char → Bool) (t : List Char) : (t.dropWhile p).length ≤ t.length :=
  (List.dropWhile_sublist p).length_le

def words (behind : Bool) (t : List Char) : Except Flaw (List Word) :=
  match t with
  | [] => return []
  | c :: r =>
    if Text.isBlank c then words behind r
    else if c.isDigit then
      let lead := c :: r.takeWhile isDigitPart
      let after := r.dropWhile isDigitPart
      let places := (after.drop 1).takeWhile isDigitPart
      if after.head? = some '.' && !behind && places.head?.any Char.isDigit then
        match Decimal.readReal? (.ofList (lead ++ '.' :: places)) with
        | some x => return .value (.float x) :: (← words false ((after.drop 1).dropWhile isDigitPart))
        | none => throw .malformed
      else match whole? lead with
        | some n => return .value (.int n) :: (← words false after)
        | none => throw .malformed
    else if isLetter c then
      return .name (.ofList (c :: r.takeWhile isNamePart)) :: (← words false (r.dropWhile isNamePart))
    else if c = '\'' || c = '"' then
      let inside := r.takeWhile (· ≠ c)
      let after := r.dropWhile (· ≠ c)
      if after.isEmpty || inside.contains '\\' then throw .malformed
      else return .value (.text (.ofList inside)) :: (← words false (after.drop 1))
    else if "+-/*%~[](){}<>=!.:|,;".toList.contains c then
      return .mark c :: (← words (c = '.') r)
    else throw .malformed
termination_by t.length
decreasing_by
  · simp
  · have := length_dropWhile_le isDigitPart r
    have := length_dropWhile_le isDigitPart ((r.dropWhile isDigitPart).drop 1)
    simp at *
    omega
  · have := length_dropWhile_le isDigitPart r
    simp
    omega
  · have := length_dropWhile_le isNamePart r
    simp
    omega
  · have := length_dropWhile_le (· ≠ c) r
    simp at *
    omega
  · simp

def constant? : String → Option Value
  | "true" | "True" => some true
  | "false" | "False" => some false
  | "none" | "None" => some .null
  | _ => none

def keys (e : Expr) : List Word → Expr × List Word
  | .mark '.' :: .name n :: r => keys (.member e true (.text n)) r
  | .mark '.' :: .value (.int n) :: r => keys (.member e false (.int n)) r
  | .mark '[' :: .value v :: .mark ']' :: r => keys (.member e false v) r
  | ws => (e, ws)

def expr : List Word → Except Flaw (Expr × List Word)
  | .name "not" :: _ => throw .malformed
  | .name n :: r => return keys (match constant? n with | some v => .constant v | none => .name n) r
  | .value v :: r => return keys (.constant v) r
  | _ => throw .malformed

def Shift.set? (s : Shift) (place : Nat) : List Word → Option Shift
  | [.value (.int n)] => if place = 0 then some { s with width := n.toNat } else none
  | [.name b] => do
    let on := (← constant? b).truthy
    match place with
    | 1 => return { s with first := on }
    | 2 => return { s with blank := on }
    | _ => none
  | [.name key, .mark '=', w] => match key with
    | "width" => s.set? 0 [w]
    | "first" => s.set? 1 [w]
    | "blank" => s.set? 2 [w]
    | _ => none
  | _ => none

def arguments (current : List Word) : List Word → Except Flaw (List (List Word) × List Word)
  | .mark ')' :: r => return (if current.isEmpty then [] else [current], r)
  | .mark ',' :: r => do
    if current.isEmpty then throw .malformed
    let (rest, r) ← arguments [] r
    return (current :: rest, r)
  | w :: r => arguments (current ++ [w]) r
  | [] => throw .malformed

def Shift.ofArguments (as : List (List Word)) : Except Flaw Shift :=
  as.zipIdx.foldlM (fun s (ws, i) => match s.set? i ws with
    | some s => .ok s
    | none => .error .malformed) {}

def shifts : Nat → List Word → Except Flaw (List Shift)
  | _, [] => return []
  | 0, _ => throw .malformed
  | n + 1, .mark '|' :: .name "indent" :: .mark '(' :: r => do
    let (as, r) ← arguments [] r
    return (← Shift.ofArguments as) :: (← shifts n r)
  | n + 1, .mark '|' :: .name "indent" :: r => return {} :: (← shifts n r)
  | _, .mark '|' :: .name n :: _ => throw (.noFilter n)
  | _, _ => throw .malformed

end PhpScaffold.Template
