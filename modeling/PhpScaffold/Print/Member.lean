import PhpScaffold.Print.Shorten

namespace PhpScaffold.Print

def escapeText (s : String) : String :=
  .ofList <| s.toList.flatMap fun c => if c = '\\' ∨ c = '\'' then ['\\', c] else [c]

mutual

def value (ns : Namespace) : Value → Except Fault String
  | .classReference name => return (← ns.shortName name).display ++ "::class"
  | .literal code => return code
  | .null => return "null"
  | .bool b => return if b then "true" else "false"
  | .int n => if Decimal.isLong n then throw .longNumber else return toString n
  | .float x => return Decimal.ofFloat x
  | .text s => return "'" ++ escapeText s ++ "'"
  | .dict es => return "[" ++ ", ".intercalate (← entries ns es) ++ "]"
  | .list vs => return "[" ++ ", ".intercalate (← values ns vs) ++ "]"
  | .tuple vs => return "[" ++ ", ".intercalate (← values ns vs) ++ "]"
  | v => throw (.unprintable v.typeName)

def values (ns : Namespace) : List Value → Except Fault (List String)
  | [] => return []
  | v :: r => return (← value ns v) :: (← values ns r)

def entries (ns : Namespace) : List (Value × Value) → Except Fault (List String)
  | [] => return []
  | (k, v) :: r => return ((← value ns k) ++ " => " ++ (← value ns v)) :: (← entries ns r)

end

/-- The widest line a signature may take before its parameters are put on lines of their own. -/
def width : Nat := 120

def unit : String := "    "

def commentLines (comment : Value) : Except Fault (List String) :=
  match comment with
  | .text s => return Text.lines s
  | .bytes b => return (Text.byteLines b).map fun l => if l.isEmpty then "" else Text.quotedBytes l
  | v => if v.truthy then throw (.noOperation v.typeName "splitlines") else return []

def docblock (lines : List String) : String :=
  if lines.isEmpty then ""
  else "/**\n" ++
    "\n".intercalate (lines.map fun l => if l.isEmpty then " *" else " * " ++ l) ++ "\n */"

def argument (ns : Namespace) (e : Value × Value) : Except Fault String :=
  return (← e.1.shown) ++ ": " ++ (← value ns e.2)

def attr (ns : Namespace) (a : Attribute) : Except Fault String := do
  let name := (← ns.shortName a.name).display
  let arguments ← match a.arguments with
    | .positional vs => values ns vs
    | .named es => es.mapM (argument ns)
  return if arguments.isEmpty then "#[" ++ name ++ "]"
    else "#[" ++ name ++ "(" ++ ", ".intercalate arguments ++ ")]"

def header (ns : Namespace) (doc : List String) (attributes : List Attribute) : Except Fault String := do
  let block := docblock doc
  let lines ← attributes.mapM (attr ns)
  return String.join (((if block.isEmpty then [] else [block]) ++ lines).map (· ++ "\n"))

def annotated (ns : Namespace) (a : Annotations) : Except Fault String := do
  header ns (← commentLines a.comment) a.attributes

def enumCase (ns : Namespace) (c : EnumCase) : Except Fault String := do
  let lead ← annotated ns c.annotations
  match c.value with
  | .null => return lead ++ "case " ++ c.name.display ++ ";"
  | v => return lead ++ "case " ++ c.name.display ++ " = " ++ (← value ns v) ++ ";"

def word (flag : Value) (text : String) : List String := if flag.truthy then [text] else []

def constant (ns : Namespace) (c : Constant) : Except Fault String := do
  let lead ← annotated ns c.annotations
  let modifiers := word c.isFinal "final" ++ (c.visibility.map Visibility.keyword).toList ++ ["const"]
  return lead ++ " ".intercalate modifiers ++ " " ++ c.name.display ++ " = " ++ (← value ns c.value) ++ ";"

def plainText (type : Option WrittenType) : List String :=
  match type with
  | some t => if t.plain.isEmpty then [] else [t.plain]
  | none => []

def full (type : Option WrittenType) : Option String :=
  type.bind WrittenType.full

def property (ns : Namespace) (p : Property) : Except Fault String := do
  let comment ← commentLines p.annotations.comment
  let type ← writeType? ns p.type p.nullable
  let lead ← header ns (comment ++ (full type).toList.map ("@var " ++ ·)) p.annotations.attributes
  let modifiers := [p.visibility.keyword] ++ word p.isStatic "static" ++ word p.isReadonly "readonly" ++
    plainText type
  let line := " ".intercalate modifiers ++ " $" ++ p.name.display
  match p.value with
  | none => return lead ++ line ++ ";"
  | some v => return lead ++ line ++ " = " ++ (← value ns v) ++ ";"

/-- The comment in front of a parameter, on one line.  Only the lines of a text can be strung together. -/
def remark (comment : Value) : Except Fault String := do
  if !comment.truthy then return ""
  let lines ← commentLines comment
  if let .bytes _ := comment then throw (.notText 0 comment.typeName)
  return "/** " ++ " ".intercalate lines ++ " */\n"

def parameter (ns : Namespace) (p : Parameter) : Except Fault (String × Option String) := do
  let attributes ← p.annotations.attributes.mapM (attr ns)
  let promotion := match p.promotion with
    | none => []
    | some q => q.visibility.keyword :: word q.isReadonly "readonly"
  let type ← writeType? ns p.type p.nullable
  let name := String.join (word p.byReference "&" ++ word p.variadic "...") ++ "$" ++ p.name.display
  let name ← match p.default with
    | none => pure name
    | some v => do pure (name ++ " = " ++ (← value ns v))
  let code := " ".intercalate (attributes ++ promotion ++ plainText type ++ [name])
  return ((← remark p.annotations.comment) ++ code, full type)

def standsAlone (p : Parameter) : Bool :=
  p.promotion.isSome || p.annotations.comment.truthy || !p.annotations.attributes.isEmpty

structure Signature where
  text : String
  wrapped : Bool
  deriving DecidableEq

def signature (start : String) (parameters : List String) (alone : Bool) (returns : String) : Signature :=
  let inline := start ++ "(" ++ ", ".intercalate (parameters.map (Text.replace '\n' ' ')) ++ ")" ++ returns
  if (alone || width < Text.size inline + Text.size unit) && !parameters.isEmpty then
    ⟨"\n".intercalate ([start ++ "("] ++ parameters.map (fun p => Text.indent (p ++ ",")) ++ [")" ++ returns]),
      true⟩
  else ⟨inline, false⟩

def methodModifiers (m : Method) : List String :=
  (if m.isAbstract.truthy then ["abstract"] else word m.isFinal "final") ++
    (m.visibility.getD .pub).keyword :: word m.isStatic "static"

def body (text : Value) : Except Fault String :=
  match text with
  | .text s =>
    return if s.isEmpty then "" else Text.indent (Text.trimEnd Text.isBlank s) ++ "\n"
  | .bytes (_ :: _) => throw (.unlikeBytes .trim)
  | v => if v.truthy then throw (.noOperation v.typeName "rstrip") else return ""

def method (ns : Namespace) (bodyless : Bool) (m : Method) : Except Fault String := do
  let comment ← commentLines m.annotations.comment
  let ps := m.parameters.values
  let written ← ps.mapM (parameter ns)
  let returns ← writeType? ns m.returnType m.returnNullable
  let doc := comment ++
    ((ps.zip written).filterMap fun (p, w) => w.2.map fun t => "@param " ++ t ++ " $" ++ p.name.display) ++
    (full returns).toList.map ("@return " ++ ·)
  let start := " ".intercalate (methodModifiers m) ++ " function " ++ m.name.display
  let head := signature start (written.map Prod.fst) (ps.any standsAlone)
    ((returns.map (": " ++ ·.plain)).getD "")
  let lead ← header ns doc m.annotations.attributes
  if bodyless || m.isAbstract.truthy then return lead ++ head.text ++ ";"
  return lead ++ head.text ++ (if head.wrapped then " \x7b" else "\n\x7b") ++ "\n" ++ (← body m.body) ++ "\x7d"

end PhpScaffold.Print
