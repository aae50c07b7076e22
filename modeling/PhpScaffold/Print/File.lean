import PhpScaffold.Text.Lines
import PhpScaffold.Model.File
import PhpScaffold.Print.Member
import PhpScaffold.Template

namespace PhpScaffold

abbrev Layout := List (String × Value) → Except Fault String

def Template.elementLayout : Layout := fun parts => fill elementName parts element

def Template.fileLayout : Layout := fun parts => fill fileName parts file

structure Layouts where
  element : Except Fault Layout := .ok Template.elementLayout
  file : Except Fault Layout := .ok Template.fileLayout

namespace Print

def elementHeader (ns : Namespace) (e : Element) : Except Fault String := do
  let modifiers := match e.form with
    | .cls _ _ _ _ isFinal isAbstract isReadonly =>
      word isFinal "final" ++ word isAbstract "abstract" ++ word isReadonly "readonly"
    | _ => []
  let name := match e.form with
    | .enum (some backing) .. => .text (e.name.display ++ ": " ++ backing.keyword)
    | _ => e.name
  let clause (word : String) (names : List Value) : Except Fault (List Value) := do
    if names.isEmpty then return []
    return [.text (word ++ ", ".intercalate (← strung (← names.mapM ns.shortName)))]
  let parents ← clause "extends " e.parents
  let interfaces ← clause "implements " e.interfaces
  return " ".intercalate
    (← strung (modifiers.map Value.text ++ [.text e.kind.keyword, name] ++ parents ++ interfaces))

def gather (lines : List String) : List String :=
  if lines.isEmpty then [] else ["\n".intercalate lines]

def sections (ns : Namespace) (e : Element) : Except Fault (List String) := do
  let traits ← e.traits.mapM fun t => return "use " ++ (← ns.shortName t).display ++ ";"
  let cases ← e.cases.mapM (enumCase ns)
  let constants ← e.constants.values.mapM (constant ns)
  let properties ← e.properties.mapM (property ns)
  let methods ← e.methods.values.mapM (method ns (e.kind = .interface))
  return gather traits ++ gather cases ++ gather constants ++ properties ++ methods

def texts (ts : List String) : Value := .list (ts.map .text)

def element (layout : Except Fault Layout) (ns : Namespace) (e : Element) :
    Except Fault String := do
  let sections ← sections ns e
  let layout ← layout
  let comment ← commentLines e.annotations.comment
  let attributes ← e.annotations.attributes.mapM (attr ns)
  let header ← elementHeader ns e
  layout [
    ("docblock", .text (docblock comment)),
    ("attributes", texts attributes),
    ("header", .text header),
    ("sections", texts sections)]

def scopeBindings (layout : Except Fault Layout) (ns : Namespace) : Except Fault Value := do
  let elements ← ns.elements.values.mapM (element layout ns)
  return .dict [
    (.text "name", ns.name),
    (.text "uses", texts ns.useStatements),
    (.text "elements", texts elements)]

def file (layouts : Layouts) (f : SourceFile) : Except Fault String := do
  let namespaces ← f.namespaces.values.mapM (scopeBindings layouts.element)
  let layout ← layouts.file
  let comment ← commentLines f.comment
  return Lint.lint (← layout [
    ("comment", texts comment),
    ("strict_types", f.strictTypes),
    ("namespaces", .list namespaces)])

end Print

end PhpScaffold
