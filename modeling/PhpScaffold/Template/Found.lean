import PhpScaffold.Fault

namespace PhpScaffold.Template

inductive Found
  | value (v : Value)
  | missing (what : Missing)
  | kind (name : String)
  | other (typeName shown : String)
  | narrowed (key : Value) (spread : Bool := false)
  | template (name : String)
  | round (items : List Found) (index length : Nat)
  | row (items : List Found)

def nth? (items : List α) (n : Int) : Option α := if n < 0 then items.reverse[n.natAbs - 1]? else items[n.toNat]?

def item? (v key : Value) : Option Value :=
  match v, key with
  | .dict es, key => Value.lookup key es
  | .list vs, .int n | .tuple vs, .int n => nth? vs n
  | .text s, .int n => nth? ((Text.characters s.toList).map fun c => .text (.ofList c)) n
  | _, _ => none

def abilities (typeName : String) : List String :=
  match typeName with
  | "str" => words "capitalize casefold center count encode endswith expandtabs find format format_map index isalnum" ++
    words "isalpha isascii isdecimal isdigit isidentifier islower isnumeric isprintable isspace istitle isupper join" ++
    words "ljust lower lstrip maketrans partition removeprefix removesuffix replace rfind rindex rjust rpartition" ++
    words "rsplit rstrip split splitlines startswith strip swapcase title translate upper zfill"
  | "list" => words "append clear copy count extend index insert pop remove reverse sort"
  | "dict" => words "clear copy fromkeys get items keys pop popitem setdefault update values"
  | "tuple" | "range" => words "count index"
  | "int" | "bool" => words "as_integer_ratio bit_count bit_length conjugate from_bytes to_bytes"
  | "float" => words "as_integer_ratio conjugate fromhex hex is_integer"
  | _ => []
where
  words (s : String) : List String := Text.cut ' ' s

def parts (v : Value) : List (String × Value) :=
  match v, v.asInt? with
  | _, some n => [("real", .int n), ("imag", .int 0), ("numerator", .int n), ("denominator", .int 1)]
  | .float x, _ => [("real", .float x), ("imag", .float 0)]
  | .literal s, _ => [("value", s)]
  | .classReference s, _ => [("name", s)]
  | _, _ => []

def ability (name owner : String) : String := "<built-in method " ++ name ++ " of " ++ owner ++ " object>"

namespace Found

def typeName : Found → String
  | value v => v.typeName
  | missing _ => "Undefined"
  | kind _ => "type"
  | other t _ => t
  | narrowed _ _ => "types.GenericAlias"
  | template _ => "TemplateReference"
  | round _ _ _ => "LoopContext"
  | row _ => "tuple"

def fullTypeName (f : Found) : String :=
  match f with
  | value (.literal _) | value (.classReference _) => "phpgen.elements." ++ f.typeName
  | missing _ | template _ | round _ _ _ => "jinja2.runtime." ++ f.typeName
  | f => f.typeName

def quotedKind (name : String) : String := "<class '" ++ name ++ "'>"

mutual

def inspect : Found → String
  | value v => v.inspect
  | missing _ => "Undefined"
  | kind name => quotedKind name
  | other _ shown => shown
  | narrowed key spread => (if spread then "*" else "") ++ "dict[" ++ key.inspect ++ "]"
  | template name => "<TemplateReference " ++ Text.quoted name ++ ">"
  | round _ index length => "<LoopContext " ++ toString (index + 1) ++ "/" ++ toString length ++ ">"
  | row fs => "(" ++ ", ".intercalate (inspectAll fs) ++ ")"

def inspectAll : List Found → List String
  | [] => []
  | f :: r => inspect f :: inspectAll r

end

def text : Found → String
  | value v => v.display
  | missing _ => ""
  | f => f.inspect

def truthy : Found → Bool
  | value v => v.truthy
  | missing _ => false
  | _ => true

def ofKind? (name part : String) : Option Found :=
  let segments := Text.cut '.' name
  let own := segments.getLastD ""
  match part with
  | "__name__" | "__qualname__" => some (value own)
  | "__module__" => some (value (if segments.length = 1 then "builtins" else ".".intercalate segments.dropLast))
  | "mro" => some (other "builtin_function_or_method" (ability part "type"))
  | _ =>
    if name = "range" && ["start", "stop", "step"].contains part then
      some (other "member_descriptor" ("<member " ++ Text.quoted part ++ " of 'range' objects>"))
    else if own = "Cycler" && part = "current" then some (other "property" "<property object>")
    else if own = "Cycler" && ["next", "reset"].contains part then
      some (other "function" ("<function Cycler." ++ part ++ ">"))
    else if ["fromkeys", "maketrans", "from_bytes", "fromhex"].contains part && (abilities name).contains part then
      some (other "builtin_function_or_method" (ability part "type"))
    else if (abilities name).contains part then
      some (other "method_descriptor" ("<method " ++ Text.quoted part ++ " of " ++ Text.quoted name ++ " objects>"))
    else none

def ofRound? (items : List Found) (index length : Nat) (part : String) : Option Found :=
  let number (n : Int) := some (value (.int n))
  match part with
  | "index" => number (index + 1)
  | "index0" => number index
  | "depth" => number 1
  | "depth0" => number 0
  | "length" => number length
  | "revindex" => number (length - index)
  | "revindex0" => number (length - index - 1)
  | "first" => some (value (index = 0 : Bool))
  | "last" => some (value (items.length ≤ index + 1 : Bool))
  | "previtem" => some ((items.take index).getLast?.getD (missing (.nothing "there is no previous item")))
  | "nextitem" => some (items[index + 1]?.getD (missing (.nothing "there is no next item")))
  | "cycle" | "changed" =>
    some (other "method" ("<bound method LoopContext." ++ part ++ " of " ++ (round items index length).inspect ++ ">"))
  | _ => none

def part? (f : Found) (name : String) : Option Found :=
  if name = "__class__" then some (kind f.fullTypeName)
  else match f with
    | value v => ((parts v).lookup name).elim
      (if (abilities v.typeName).contains name then some (other "builtin_function_or_method" (ability name v.typeName))
        else none) (some <| value ·)
    | kind k => ofKind? k name
    | narrowed _ _ => ofKind? "dict" name
    | round items index length => ofRound? items index length name
    | _ => none

def item? (f : Found) (key : Value) : Option Found :=
  match f, key with
  | value v, key => (Template.item? v key).map value
  | kind "dict", key => some (narrowed key)
  | row fs, .int n => nth? fs n
  | _, _ => none

/-- Looks something up: by a name first what belongs to the thing, by a key first what it holds. -/
def member (f : Found) (byName : Bool) (key : Value) : Except Fault Found :=
  let part := key.text?.bind f.part?
  match f, if byName then part.or (f.item? key) else (f.item? key).or part, key with
  | missing what, p, _ => match byName, p with
    | true, some g => return g
    | _, _ => throw (.absent what)
  | _, some g, _ => return g
  | f, none, .text s => return missing (.member f.fullTypeName s)
  | f, none, key => return missing (.element f.fullTypeName key.inspect)

def items : Found → Except Fault (List Found)
  | missing _ => return []
  | value v => match v.items? with
    | some vs => return vs.map value
    | none => throw (.notIterable v.typeName)
  | narrowed key _ => return [narrowed key true]
  | template _ => throw (.noMember (.int 0))
  | round fs index length =>
    return (fs.zipIdx.drop (index + 1)).map fun (f, i) => row [f, round fs i length]
  | row fs => return fs
  | f => throw (.notIterable f.typeName)

end Found

end PhpScaffold.Template
