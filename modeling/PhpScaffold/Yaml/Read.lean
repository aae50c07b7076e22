import PhpScaffold.Yaml.Node

/-! What the nodes of a document stand for.  They are met level by level: first the root, then what it holds, in order,
and so on; that order decides which of several faults is found.  In a map the last entry for a key counts. -/

namespace PhpScaffold.Yaml

namespace Graph

mutual

/-- Takes in what a map asks for.  Each further map on the way uses up an entry, so their number bounds `depth`. -/
def merge (depth : Nat) (g : Graph) (n : Nat) : Except Obstacle Graph :=
  match g.get n with
  | .map tag es => mergeEntries depth g n tag [] [] es
  | _ => return g
termination_by (depth, 1, 0)

def mergeEntries (depth : Nat) (g : Graph) (n : Nat) (tag : Tag) (taken kept : List (Nat × Nat)) :
    List (Nat × Nat) → Except Obstacle Graph
  | [] => return g.set n (.map tag (taken ++ kept.reverse))
  | (k, v) :: r =>
    match (g.get k).tag, depth with
    | .merge, 0 => throw .malformed
    | .merge, depth + 1 => do
      let g := g.set n (.map tag (kept.reverse ++ r))
      match g.get v with
      | .map _ _ =>
        let g ← merge depth g v
        mergeEntries depth g n tag (taken ++ (g.get v).entries) kept r
      | .list _ ms =>
        let g ← ms.foldlM (fun g m => match g.get m with
          | .map _ _ => merge depth g m
          | _ => throw .malformed) g
        mergeEntries depth g n tag (taken ++ ms.reverse.flatMap fun m => (g.get m).entries) kept r
      | .scalar _ _ => throw .malformed
    | .value, depth => mergeEntries depth (g.set k ((g.get k).withTag .text)) n tag taken ((k, v) :: kept) r
    | _, depth => mergeEntries depth g n tag taken ((k, v) :: kept) r
termination_by es => (depth, 0, es.length)

end

def size (g : Graph) : Nat := g.nodes.foldl (fun n a => n + a.entries.length) 1

def merged (g : Graph) (n : Nat) : Except Obstacle Graph := g.merge g.size n

end Graph

inductive Content
  | leaf (v : Value)
  | list (items : List Nat)
  | map (entries : List (Value × Nat))
  | set (items : List Value)
  | entries (items : List (Nat × Nat))

def Content.leaf? : Content → Option Value
  | leaf v => some v
  | _ => none

def Content.isMap : Content → Bool
  | map _ => true
  | _ => false

structure Document where
  contents : Array Content
  root : Nat

structure Survey where
  graph : Graph
  contents : Array (Option Content)
  queue : List Nat := []

namespace Survey

def know (s : Survey) (n : Nat) (c : Content) : Survey :=
  { s with contents := s.contents.setIfInBounds n (some c) }

def content? (s : Survey) (n : Nat) : Option Content := (s.contents[n]?).join

def text (g : Graph) : Nat → Nat → Except Obstacle String
  | 0, _ => throw .malformed
  | depth + 1, n =>
    match g.get n with
    | .scalar _ s => return s
    | .list _ _ => throw .malformed
    | .map _ es => match es.find? fun e => (g.get e.1).tag = .value with
      | some (_, v) => text g depth v
      | none => throw .malformed

def visit (s : Survey) (n : Nat) : Except Obstacle Survey :=
  if (s.content? n).isSome then return s
  else match (s.graph.get n).tag with
    | .list | .entries => return { s.know n (.list []) with queue := s.queue ++ [n] }
    | .map | .set => return { s.know n (.map []) with queue := s.queue ++ [n] }
    | tag => do
      let t ← text s.graph (s.graph.nodes.size + 1) n
      match tag, s.graph.get n with
      | .time, .map _ _ => throw (.fault (.notSearchable "list"))
      | tag, _ => return s.know n (.leaf (← Scalar.value tag t))

structure Key where
  node : Nat
  value : Value

/-- Whether two keys are the same.  A float that is no number equals nothing, so it is the same key only where it is
the same node, or where both are the word for it. -/
def sameKey (s : Survey) (k l : Key) : Bool :=
  k.value.same l.value || (k.value.isNoNumber && l.value.isNoNumber && (k.node = l.node || (isWord k && isWord l)))
where
  isWord (k : Key) : Bool :=
    match text s.graph (s.graph.nodes.size + 1) k.node with
    | .ok t => Scalar.isNoNumber t
    | .error _ => false

def insertEntry (s : Survey) (k : Key) (n : Nat) : List (Key × Nat) → List (Key × Nat)
  | [] => [(k, n)]
  | (l, m) :: r => if s.sameKey l k then (l, n) :: r else (l, m) :: insertEntry s k n r

def visitEntries (s : Survey) (known : List (Key × Nat)) :
    List (Nat × Nat) → Except Obstacle (Survey × List (Value × Nat))
  | [] => return (s, known.map fun (k, n) => (k.value, n))
  | (k, v) :: r => do
    let s ← s.visit k
    match (s.content? k).bind Content.leaf? with
    | none => throw .malformed
    | some key => (← s.visit v).visitEntries (s.insertEntry ⟨k, key⟩ v known) r

def visitPairs (s : Survey) (known : List (Nat × Nat)) : List Nat → Except Obstacle (Survey × List (Nat × Nat))
  | [] => return (s, known.reverse)
  | n :: r =>
    match s.graph.get n with
    | .map _ [(k, v)] => do (← (← s.visit k).visit v).visitPairs ((k, v) :: known) r
    | _ => throw .malformed

def enterMap (s : Survey) (n : Nat) : Except Obstacle (Survey × List (Value × Nat)) := do
  let g ← s.graph.merged n
  { s with graph := g }.visitEntries [] (g.get n).entries

def enter (s : Survey) (n : Nat) : Except Obstacle Survey :=
  match (s.graph.get n).tag, s.graph.get n with
  | .list, .list _ ns => do return (← ns.foldlM visit s).know n (.list ns)
  | .entries, .list _ ns => do
    let (s, ps) ← s.visitPairs [] ns
    return s.know n (.entries ps)
  | .map, .map _ _ => do
    let (s, es) ← s.enterMap n
    return s.know n (.map es)
  | .set, .map _ _ => do
    let (s, es) ← s.enterMap n
    return s.know n (.set (es.map Prod.fst))
  | _, _ => throw .malformed

def run (s : Survey) : Nat → Except Obstacle Survey
  | 0 => return s
  | steps + 1 =>
    match s.queue with
    | [] => return s
    | n :: r => do (← { s with queue := r }.enter n).run steps

end Survey

namespace Document

def ofGraph (g : Graph) (root : Nat) : Except Obstacle Document := do
  let s ← ({ graph := g, contents := .replicate g.nodes.size none } : Survey).visit root
  let s ← s.run g.nodes.size
  return ⟨s.contents.map (·.getD (.leaf .null)), root⟩

def content (d : Document) (n : Nat) : Content := (d.contents[n]?).getD (.leaf .null)

/-- The value of a node.  `inside` are the nodes whose values it is a part of, apart from the outermost ones, of which
`outer` are still to come: a node among them is not gone through again.  `depth` bounds how deep values are nested. -/
def unfold (d : Document) : Nat → Nat → List Nat → Nat → Value
  | 0, _, _, _ => .null
  | depth + 1, outer, inside, n =>
    if inside.contains n then .again (d.content n).isMap
    else
      let part := d.unfold depth (outer - 1) (if outer = 0 then n :: inside else inside)
      match d.content n with
      | .leaf v => v
      | .list ns => .list (ns.map part)
      | .map es => .dict (es.map fun (k, m) => (k, part m))
      | .set vs => .ofItems vs true
      | .entries ps => .list (ps.map fun (k, v) => .tuple [part k, part v])

def value (d : Document) (n : Nat) : Value := d.unfold (d.contents.size + 2) 1 [] n

end Document

def read (s : String) : Except Obstacle Document := do
  let (g, root) ← Graph.ofTokens (tokens s.toList)
  Document.ofGraph g root

end PhpScaffold.Yaml
