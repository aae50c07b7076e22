import PhpScaffold.Text.Blank

namespace PhpScaffold.Name

def separator : Char := '\\'

def bare (name : String) : String := Text.trim (· = separator) name

def relative (name : String) : String := Text.trimStart (· = separator) name

def splitLast (name : String) : String × String :=
  let t := name.toList
  let last := (t.reverse.takeWhile (· ≠ separator)).reverse
  (.ofList (t.take (t.length - last.length - 1)), .ofList last)

def scope (name : String) : String := (splitLast (bare name)).1

def short (name : String) : String := (splitLast (bare name)).2

def segments (name : String) : List String := Text.cut separator name

def join (scope short : String) : String :=
  if scope.isEmpty then short else scope ++ "\\" ++ short

/-- Whether the name has a backslash other than one in front. -/
def isQualified (name : String) : Bool :=
  match name.toList with
  | [] => false
  | c :: r => if c = separator then r.contains separator else (c :: r).contains separator

def isHead (c : Char) : Bool := c.isAlpha || c = '_'

def isTail (c : Char) : Bool := c.isAlphanum || c = '_'

def takeTail : List Char → List Char × List Char
  | [] => ([], [])
  | '\\' :: c :: r =>
    if isHead c then
      let (name, rest) := takeTail r
      ('\\' :: c :: name, rest)
    else ([], '\\' :: c :: r)
  | c :: r =>
    if isTail c then
      let (name, rest) := takeTail r
      (c :: name, rest)
    else ([], c :: r)

theorem takeTail_append (t : List Char) : (takeTail t).1 ++ (takeTail t).2 = t := by
  fun_induction takeTail t <;> simp_all

def takeName? : List Char → Option (List Char × List Char)
  | [] => none
  | '\\' :: c :: r => if isHead c then some ('\\' :: c :: (takeTail r).1, (takeTail r).2) else none
  | c :: r => if isHead c then some (c :: (takeTail r).1, (takeTail r).2) else none

theorem takeName?_append {t name rest : List Char} (h : takeName? t = some (name, rest)) :
    name ++ rest = t ∧ rest.length < t.length := by
  have aux (r : List Char) : (takeTail r).2.length ≤ r.length := by
    have := congrArg List.length (takeTail_append r)
    simp at this
    omega
  unfold takeName? at h
  split at h
  · simp at h
  · split at h <;> simp at h
    obtain ⟨rfl, rfl⟩ := h
    exact ⟨by simp [takeTail_append], by have := aux ‹_›; simp; omega⟩
  · split at h <;> simp at h
    obtain ⟨rfl, rfl⟩ := h
    exact ⟨by simp [takeTail_append], by have := aux ‹_›; simp; omega⟩

inductive Token
  | name (text : List Char)
  | other (c : Char)
  deriving DecidableEq

def Token.text : Token → List Char
  | name t => t
  | other c => [c]

def tokens (t : List Char) : List Token :=
  match _h : takeName? t with
  | some (name, rest) => .name name :: tokens rest
  | none => match t with
    | [] => []
    | c :: r => .other c :: tokens r
termination_by t.length
decreasing_by
  · exact (takeName?_append _h).2
  · simp

@[simp] theorem flatMap_text_tokens (t : List Char) : (tokens t).flatMap Token.text = t := by
  fun_induction tokens t with
  | case1 t name rest h ih => simp [Token.text, ih, (takeName?_append h).1]
  | case2 => simp
  | case3 c r h ih => simp [Token.text, ih]

def names (expression : String) : List String :=
  (tokens expression.toList).filterMap fun
    | .name t => some (.ofList t)
    | .other _ => none

/-- The qualified names in a type expression, without the backslash in front. -/
def qualifiedNames (expression : String) : List String :=
  ((names expression).filter isQualified).map relative

def mapNames (f : String → String) (expression : String) : String :=
  .ofList <| (tokens expression.toList).flatMap fun
    | .name t => (f (.ofList t)).toList
    | .other c => [c]

end PhpScaffold.Name
