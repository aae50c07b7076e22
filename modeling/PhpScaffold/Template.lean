import PhpScaffold.Template.Found
import PhpScaffold.Text.Lines

/-! Templates: text with places for values, conditions and loops.  What a value brings in is never read as template
text. -/

namespace PhpScaffold

inductive Template.Expr
  | name (s : String)
  | constant (v : Value)
  | member (e : Expr) (byName : Bool) (key : Value)

structure Template.Shift where
  width : Nat := 4
  first : Bool := false
  blank : Bool := false
  deriving DecidableEq

inductive Template
  | text (s : String)
  | output (value : Template.Expr) (shifts : List Template.Shift)
  | cond (value : Template.Expr) (body : List Template)
  | loop (name : String) (value : Template.Expr) (body : List Template)

namespace Template

abbrev Bindings := List (String × Found)

def Found.shift (f : Found) (s : Shift) : Except Fault Found :=
  match f with
  | missing what => throw (.absent what)
  | value (.text t) => return value (Text.block (.ofList (List.replicate s.width ' ')) s.first s.blank t)
  | value (.list vs) => throw (.noOperation (Value.list vs).typeName "splitlines")
  | f => throw (.notGrowable f.typeName)

namespace Expr

def eval (b : Bindings) : Expr → Except Fault Found
  | name s => return (b.lookup s).getD (.missing (.name s))
  | constant v => return .value v
  | member e byName key => do (← e.eval b).member byName key

def head? : Expr → Option String
  | name s => some s
  | constant _ => none
  | member e _ _ => e.head?

end Expr

def roundName : String := "loop"

def Expr.lastRound? (b : Bindings) : Expr → Option Found
  | name s => match b.lookup s with
    | some (.round items _ length) => if s = roundName then some (.round items (items.length - 1) length) else none
    | _ => none
  | _ => none

def Found.extent (f : Found) (items : List Found) : Nat :=
  match f with
  | round _ _ length => length
  | _ => items.length

structure Written where
  text : String := ""
  round : Option Found := none

mutual

def render (b : Bindings) : Template → Except Fault Written
  | text s => return { text := s }
  | output e shifts => do return { text := (← shifts.foldlM Found.shift (← e.eval b)).text }
  | cond e body => do if (← e.eval b).truthy then renderAll b body else return {}
  | loop name e body => do
    let f ← e.eval b
    let items ← f.items
    let w ← items.zipIdx.foldlM (fun (w : Written) (item, i) => do
      if w.round.isSome then return w
      let v ← renderAll ((name, item) :: (roundName, .round items i (f.extent items)) :: b) body
      return { v with text := w.text ++ v.text }) {}
    return { text := w.text, round := e.lastRound? b }

def renderAll (b : Bindings) : List Template → Except Fault Written
  | [] => return {}
  | t :: r => do
    let w ← render b t
    let v ← renderAll (w.round.elim b fun round => (roundName, round) :: b) r
    return { text := w.text ++ v.text, round := v.round.or w.round }

end

def ownName : String := "self"

mutual

/-- Whether a name is first used, before a loop takes it; nothing where it does not occur. -/
def uses? (s : String) : Template → Option Bool
  | text _ => none
  | output e _ => if e.head? = some s then some true else none
  | cond e body => if e.head? = some s then some true else useAll? s body
  | loop name e body =>
    if name = s then some false else if e.head? = some s then some true else useAll? s body

def useAll? (s : String) : List Template → Option Bool
  | [] => none
  | t :: r => (uses? s t).or (useAll? s r)

end

def standard : Bindings := [
  ("range", .kind "range"), ("dict", .kind "dict"), ("lipsum", .other "function" "<function generate_lorem_ipsum>"),
  ("cycler", .kind "jinja2.utils.Cycler"), ("joiner", .kind "jinja2.utils.Joiner"),
  ("namespace", .kind "jinja2.utils.Namespace")]

def fill (name : String) (values : List (String × Value)) (ts : List Template) : Except Fault String := do
  let own : Bindings := if useAll? ownName ts = some true then [(ownName, .template name)] else []
  return (← renderAll (own ++ values.map (fun e => (e.1, .value e.2)) ++ standard) ts).text

def Expr.path (s : String) (fields : List String) : Expr :=
  fields.foldl (fun e f => .member e true (.text f)) (.name s)

def write (s : String) : Template := .output (.name s) []

def elementName : String := "element.php.j2"

def fileName : String := "file.php.j2"

def element : List Template := [
  .cond (.name "docblock") [write "docblock", .text "\n"],
  .loop "attribute" (.name "attributes") [write "attribute", .text "\n"],
  write "header", .text "\n\x7b\n",
  .loop "section" (.name "sections") [
    .output (.name "section") [{ width := 4, first := true }], .text "\n\n"],
  .text "\x7d"]

def file : List Template := [
  .text "<?php\n",
  .cond (.name "comment") [.text "\n/**\n",
    .loop "line" (.name "comment") [.text " * ", write "line", .text "\n"], .text " */\n"],
  .cond (.name "strict_types") [.text "\ndeclare(strict_types=1);\n"],
  .loop "ns" (.name "namespaces") [
    .cond (.path "ns" ["name"]) [.text "\nnamespace ", .output (.path "ns" ["name"]) [], .text ";\n"],
    .cond (.path "ns" ["uses"]) [.text "\n",
      .loop "use" (.path "ns" ["uses"]) [.text "use ", write "use", .text ";\n"]],
    .loop "element" (.path "ns" ["elements"]) [.text "\n", write "element", .text "\n"]]]

end Template

end PhpScaffold
