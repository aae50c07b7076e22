import PhpScaffold.Fault
import PhpScaffold.Table
import PhpScaffold.Value

namespace PhpScaffold.CommandLine

inductive Intake
  | nothing
  | text
  | textOrNothing
  | number
  | help
  deriving DecidableEq

structure Flag where
  spellings : List String
  key : String := ""
  intake : Intake := .nothing
  default : Option Value := none

namespace Flag

def title (f : Flag) : String := "/".intercalate f.spellings

def takesValue (f : Flag) : Bool :=
  match f.intake with
  | .text | .textOrNothing | .number => true
  | .nothing | .help => false

end Flag

inductive Arity
  | one
  | optional
  | command (names : List String)
  deriving DecidableEq

structure Positional where
  name : String
  arity : Arity
  default : Value := .null

structure Grammar where
  program : String
  flags : List Flag := []
  positionals : List Positional := []

namespace Grammar

def addFlag (g : Grammar) (f : Flag) : Except Fault Grammar :=
  match f.spellings.filter fun s => g.flags.any (·.spellings.contains s) with
  | [] => return { g with flags := g.flags ++ [f] }
  | clash => throw (.flagClash f.title clash)

def addArgument (g : Grammar) (name : String) (required : Bool) : Except Fault Grammar :=
  match name.toList with
  | [] => throw .noCharacter
  | '-' :: r =>
    match r.dropWhile (· = '-') with
    | [] => throw (.dashesOnly name)
    | key => g.addFlag {
        spellings := [name]
        key := Text.replace '-' '_' (.ofList key)
        intake := if required then .text else .textOrNothing
        default := some .null }
  | _ => return { g with positionals := g.positionals ++ [{ name, arity := if required then .one else .optional }] }

def withDefault (g : Grammar) (key : String) (v : Value) : Grammar :=
  { g with
    flags := g.flags.map fun f => if f.key = key then { f with default := some v } else f
    positionals := g.positionals.map fun p => if p.name = key then { p with default := v } else p }

end Grammar

inductive Refusal
  | ambiguous (word : String) (spellings : List String)
  | valueMissing (flag : String)
  | valueIgnored (flag text : String)
  | notNumber (flag text : String)
  | notChoice (name word : String) (choices : List String)
  | missing (names : List String)
  | unrecognized (words : List String)
  deriving DecidableEq

def Refusal.message : Refusal → String
  | ambiguous word spellings =>
    "ambiguous option: " ++ word ++ " could match " ++ ", ".intercalate spellings
  | valueMissing flag => "argument " ++ flag ++ ": expected one argument"
  | valueIgnored flag text => "argument " ++ flag ++ ": ignored explicit argument " ++ Text.quoted text
  | notNumber flag text => "argument " ++ flag ++ ": invalid int value: " ++ Text.quoted text
  | notChoice name word choices =>
    "argument " ++ name ++ ": invalid choice: " ++ Text.quoted word ++ " (choose from " ++
      ", ".intercalate (choices.map Text.quoted) ++ ")"
  | missing names => "the following arguments are required: " ++ ", ".intercalate names
  | unrecognized words => "unrecognized arguments: " ++ " ".intercalate words

inductive Stop
  | help
  | refused (why : Refusal)
  deriving DecidableEq

def isNegativeNumber (w : List Char) : Bool :=
  match w with
  | '-' :: r =>
    let r := if r.getLast? = some '\n' then r.dropLast else r
    let whole := r.takeWhile Text.isDigit
    match r.dropWhile Text.isDigit with
    | [] => !whole.isEmpty
    | '.' :: f => !f.isEmpty && f.all Text.isDigit
    | _ => false
  | _ => false

end PhpScaffold.CommandLine
