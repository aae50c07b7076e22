import PhpScaffold.Text.Blank

namespace PhpScaffold

inductive Lead
  | here
  | root
  | twoSlashes
  deriving DecidableEq

namespace Lead

def text : Lead → String
  | here => ""
  | root => "/"
  | twoSlashes => "//"

def ofText (s : String) : Lead :=
  match s.toList with
  | ['/', '/'] => twoSlashes
  | '/' :: '/' :: c :: _ => if c = '/' then root else twoSlashes
  | '/' :: _ => root
  | _ => here

end Lead

structure Path where
  lead : Lead
  parts : List String
  deriving DecidableEq

namespace Path

def absolute (p : Path) : Bool := p.lead ≠ .here

def isName (part : String) : Bool := !part.isEmpty && part ≠ "."

def ofText (s : String) : Path := ⟨.ofText s, (Text.cut '/' s).filter isName⟩

def text (p : Path) : String :=
  if !p.absolute && p.parts.isEmpty then "." else p.lead.text ++ "/".intercalate p.parts

def hasNull (p : Path) : Bool := p.parts.any (·.toList.contains '\x00')

def join (p q : Path) : Path :=
  if q.absolute then q else { p with parts := p.parts ++ q.parts }

def child (p : Path) (s : String) : Path := p.join (ofText s)

def parent (p : Path) : Path := { p with parts := p.parts.dropLast }

def name (p : Path) : String := p.parts.getLast?.getD ""

def push (parts : List String) (part : String) : List String :=
  if part = ".." then parts.dropLast else parts ++ [part]

def normalize (p : Path) : Path := { p with parts := p.parts.foldl push [] }

def resolve (p : Path) : Path := { p.normalize with lead := .root }

def below? (p base : Path) : Option Path :=
  if p.lead = base.lead ∧ base.parts.isPrefixOf p.parts then
    some ⟨.here, p.parts.drop base.parts.length⟩
  else none

def relativeTo (p base : Path) : Path := (p.below? base).getD p

@[simp] theorem join_of_absolute (p : Path) {q : Path} (h : q.absolute) : p.join q = q := by
  simp [join, h]

theorem join_assoc (p q r : Path) : (p.join q).join r = p.join (q.join r) := by
  by_cases hr : r.absolute <;> by_cases hq : q.absolute <;> simp_all [join, absolute]

end Path

end PhpScaffold
