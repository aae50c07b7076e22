import PhpScaffold.Roster

namespace PhpScaffold

def addName (names : List String) (name : String) : List String :=
  if name ∈ names then names else names ++ [name]

def distinct (names : List String) : List String := names.foldl addName []

inductive Visibility
  | pub
  | prot
  | priv
  deriving DecidableEq

namespace Visibility

def keyword : Visibility → String
  | pub => "public"
  | prot => "protected"
  | priv => "private"

def ofKeyword? : String → Option Visibility
  | "public" => some pub
  | "protected" => some prot
  | "private" => some priv
  | _ => none

def read (keyword : Value) : Except Fault (Option Visibility) :=
  match keyword with
  | .null => return none
  | keyword => match keyword.text?.bind ofKeyword? with
    | some v => return some v
    | none => throw (.visibility keyword.display)

@[simp] theorem ofKeyword?_keyword (v : Visibility) : ofKeyword? v.keyword = some v := by
  cases v <;> rfl

end Visibility

inductive Arguments
  | positional (values : List Value)
  | named (entries : List (Value × Value))

namespace Arguments

def read : Value → Except Fault Arguments
  | .null => return positional []
  | .dict es => return named es
  | v => match v.items? with
    | some vs => return positional vs
    | none => throw (.notIterable v.typeName)

def values : Arguments → List Value
  | positional vs => vs
  | named es => es.map Prod.snd

end Arguments

structure Attribute where
  name : Value
  arguments : Arguments := .positional []

def addLine (text line : Value) : Value :=
  if text.truthy then text.display ++ "\n" ++ line.display else line

structure Annotations where
  attributes : List Attribute := []
  comment : Value := .null

structure Promotion where
  visibility : Visibility := .pub
  isReadonly : Value := false

structure Parameter where
  name : Value
  annotations : Annotations := {}
  type : Value := .null
  nullable : Value := false
  variadic : Value := false
  byReference : Value := false
  default : Option Value := none
  promotion : Option Promotion := none

structure Method where
  name : Value
  annotations : Annotations := {}
  parameters : Roster Parameter := {}
  returnType : Value := .null
  returnNullable : Value := false
  visibility : Option Visibility := none
  isStatic : Value := false
  isFinal : Value := false
  isAbstract : Value := false
  body : Value := .null

structure Property where
  name : Value
  annotations : Annotations := {}
  type : Value := .null
  nullable : Value := false
  visibility : Visibility := .pub
  isStatic : Value := false
  isReadonly : Value := false
  value : Option Value := none

structure Constant where
  name : Value
  value : Value
  annotations : Annotations := {}
  visibility : Option Visibility := none
  isFinal : Value := false

structure EnumCase where
  name : Value
  value : Value := .null
  annotations : Annotations := {}

end PhpScaffold
