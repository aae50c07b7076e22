import PhpScaffold.Files.Tree
import PhpScaffold.Print.File
import PhpScaffold.Template.Word

namespace PhpScaffold.Template

inductive Piece
  | text (t : List Char)
  | output (t : List Char)
  | tag (t : List Char)
  | comment

def until? (a b : Char) : List Char → Option (List Char × List Char)
  | [] => none
  | x :: r =>
    match r with
    | y :: s => if x = a ∧ y = b then some ([], s) else (until? a b r).map fun (t, rest) => (x :: t, rest)
    | [] => none

theorem until?_length {a b : Char} {t inner rest : List Char} (h : until? a b t = some (inner, rest)) :
    rest.length < t.length := by
  fun_induction until? a b t generalizing inner rest with
  | case1 => simp at h
  | case2 => grind
  | case3 x y s hn ih =>
    obtain ⟨⟨i, r⟩, h1, h2⟩ := Option.map_eq_some_iff.1 h
    have := ih h1
    simp_all
    omega
  | case4 => simp at h

def toBracket : List Char → List Char × Option (Char × List Char)
  | [] => ([], none)
  | c :: r =>
    match c, r with
    | '\x7b', '\x7b' :: s => ([], some ('\x7b', s))
    | '\x7b', '%' :: s => ([], some ('%', s))
    | '\x7b', '#' :: s => ([], some ('#', s))
    | _, _ => (c :: (toBracket r).1, (toBracket r).2)

theorem toBracket_length {t before rest : List Char} {c : Char}
    (h : toBracket t = (before, some (c, rest))) : rest.length < t.length := by
  fun_induction toBracket t generalizing before rest with
  | case1 => simp at h
  | case2 => grind
  | case3 => grind
  | case4 => grind
  | case5 c r h1 h2 h3 ih =>
    simp only [Prod.mk.injEq] at h
    have := ih (Prod.ext rfl h.2)
    simp
    omega

inductive Sign
  | plus
  | minus

def Sign.of? (brackets : Char) (c : Option Char) : Option Sign :=
  match c with
  | some '-' => some minus
  | some '+' => if brackets = '\x7b' then none else some plus
  | _ => none

def trimLine (atLineStart : Bool) (t : List Char) : List Char :=
  let last := (t.reverse.takeWhile (· ≠ '\n')).reverse
  if last.all Text.isBlank && (atLineStart || t.contains '\n') then t.take (t.length - last.length) else t

def before (brackets : Char) (sign : Option Char) (atLineStart : Bool) (t : List Char) : List Char :=
  if sign = some '-' then (t.reverse.dropWhile Text.isBlank).reverse
  else if brackets = '\x7b' || sign = some '+' then t
  else trimLine atLineStart t

def swallowed (brackets : Char) (sign : Option Sign) (rest : List Char) : Nat :=
  match sign with
  | some .minus => (rest.takeWhile Text.isBlank).length
  | some .plus => 0
  | none => if brackets ≠ '\x7b' && rest.head? = some '\n' then 1 else 0

def dropSign (t : List Char) : List Char :=
  match t with
  | '-' :: r | '+' :: r => r
  | t => t

theorem dropSign_length (t : List Char) : (dropSign t).length ≤ t.length := by
  unfold dropSign
  split <;> simp

def pieces? (atLineStart : Bool) (t : List Char) : Option (List Piece) :=
  match _h : toBracket t with
  | (lead, none) => some [.text lead]
  | (lead, some (c, rest)) =>
    match _h2 : until? (if c = '\x7b' then '\x7d' else c) '\x7d' (dropSign rest) with
    | none => none
    | some (inner, after) =>
      let opening := (rest.head?).filter fun s => s = '-' || s = '+'
      let closing := Sign.of? c inner.getLast?
      let inner := if closing.isSome then inner.dropLast else inner
      let piece := if c = '\x7b' then Piece.output inner else if c = '%' then .tag inner else .comment
      let gone := swallowed c closing after
      (pieces? ((after.take gone).getLast? = some '\n') (after.drop gone)).map fun ps =>
        .text (before c opening atLineStart lead) :: piece :: ps
termination_by t.length
decreasing_by
  have := toBracket_length _h
  have := until?_length _h2
  have := dropSign_length rest
  simp
  omega

inductive Opening
  | loop (name : String) (value : Expr)
  | cond (value : Expr)

structure Nesting where
  nodes : List Template := []
  outer : List (Opening × List Template) := []

namespace Nesting

def add (n : Nesting) (t : Template) : Nesting := { n with nodes := t :: n.nodes }

def start (n : Nesting) (o : Opening) : Nesting := ⟨[], (o, n.nodes) :: n.outer⟩

def alone (ws : List Word) : Except Flaw Expr := do
  let (e, rest) ← expr ws
  if rest.isEmpty then return e else throw .malformed

def tag (n : Nesting) : List Word → Except Flaw Nesting
  | .name "for" :: .name name :: .name "in" :: value => do
    if (constant? name).isSome || name = "in" then throw .malformed
    return n.start (.loop name (← alone value))
  | .name "if" :: value => return n.start (.cond (← alone value))
  | [.name "endfor"] => match n.outer with
    | (.loop name value, nodes) :: r => return ⟨.loop name value n.nodes.reverse :: nodes, r⟩
    | _ => throw .malformed
  | [.name "endif"] => match n.outer with
    | (.cond value, nodes) :: r => return ⟨.cond value n.nodes.reverse :: nodes, r⟩
    | _ => throw .malformed
  | _ => throw .malformed

def step (n : Nesting) : Piece → Except Flaw Nesting
  | .text t => return if t.isEmpty then n else n.add (.text (.ofList t))
  | .comment => return n
  | .output t => do
    let (e, rest) ← expr (← words false t)
    return n.add (.output e (← shifts rest.length rest))
  | .tag t => do n.tag (← words false t)

end Nesting

def sourceText (s : String) : List Char :=
  let t := Lint.unifyBreaks s.toList
  if t.getLast? = some '\n' then t.dropLast else t

mutual

def takes (s : String) : Template → Bool
  | text _ | output _ _ => false
  | cond _ body => takesAny s body
  | loop name _ body => name = s || takesAny s body

def takesAny (s : String) : List Template → Bool
  | [] => false
  | t :: r => takes s t || takesAny s r

end

def read (s : String) : Except Flaw (List Template) := do
  let some pieces := pieces? true (sourceText s) | throw .malformed
  let n ← pieces.foldlM Nesting.step {}
  let ts := n.nodes.reverse
  if !n.outer.isEmpty then throw .malformed
  else if takesAny roundName ts then throw .roundTaken
  else return ts

/-- The layout of a template in a directory, or the one at hand where the directory has none. -/
def load (t : Tree) (dir : Path) (name : String) (standard : Layout) : Except Fault Layout := do
  let p := dir.child name
  if !t.isFile p then return standard
  let ts ← (read (← t.readText p)).mapError Flaw.fault
  return fun parts => fill name parts ts

end Template

/-- What reads the templates of a directory.  What it makes of them may depend on what is there by then, and on what it
printed before: each file, and the tree that was there. -/
abbrev Engine := Path → List (Tree × SourceFile) → Tree → Layouts

namespace Engine

def whenFirst (needs : SourceFile → Bool) (before : List (Tree × SourceFile)) (t : Tree) : Tree :=
  ((before.find? fun e => needs e.2).map Prod.fst).getD t

def hasElement (f : SourceFile) : Bool := f.namespaces.values.any fun ns => !ns.elements.values.isEmpty

/-- Reads each template when it is first needed, and keeps it.  This engine knows templates as `Template.read` does:
values with what is looked up in them, shifts, loops and plain conditions. -/
def plain : Engine := fun dir before t =>
  { element := Template.load (whenFirst hasElement before t) dir Template.elementName Template.elementLayout
    file := Template.load (whenFirst (fun _ => true) before t) dir Template.fileName Template.fileLayout }

end Engine

end PhpScaffold
