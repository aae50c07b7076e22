import PhpScaffold.Yaml.Scan

namespace PhpScaffold.Yaml

inductive Node
  | scalar (tag : Tag) (text : String)
  | list (tag : Tag) (items : List Nat)
  | map (tag : Tag) (entries : List (Nat × Nat))
  deriving DecidableEq

namespace Node

def empty : Node := scalar .null ""

def tag : Node → Tag
  | scalar t _ | list t _ | map t _ => t

def withTag (t : Tag) : Node → Node
  | scalar _ s => scalar t s
  | list _ ns => list t ns
  | map _ es => map t es

def entries : Node → List (Nat × Nat)
  | map _ es => es
  | _ => []

end Node

structure Graph where
  nodes : Array Node := #[.empty]

namespace Graph

def left : Nat := 0

def get (g : Graph) (n : Nat) : Node := (g.nodes[n]?).getD .empty

def add (g : Graph) (a : Node) : Graph × Nat := (⟨g.nodes.push a⟩, g.nodes.size)

def set (g : Graph) (n : Nat) (a : Node) : Graph := ⟨g.nodes.setIfInBounds n a⟩

end Graph

structure Properties where
  anchor : Option String := none
  tag : Option String := none
  deriving DecidableEq

namespace Properties

def isEmpty (p : Properties) : Bool := p.anchor.isNone && p.tag.isNone

def scalarTag (p : Properties) (text : String) (plain : Bool) : Tag :=
  match p.tag with
  | none => if plain then .ofPlain text else .text
  | some t => if t = plainTag then .ofPlain text else .ofText t

def groupTag (p : Properties) (own : Tag) : Tag :=
  match p.tag with
  | none => own
  | some t => if t = plainTag then own else .ofText t

end Properties

inductive Place
  | entry
  | key
  | afterKey (k : Nat)
  | value (k : Nat)
  | done

inductive Frame
  | start (directives : Bool)
  | opened
  | document (root : Nat)
  | ended
  | blockList (compact : Bool) (items : List Nat) (wants : Bool)
  | blockMap (entries : List (Nat × Nat)) (place : Place)
  | flowList (items : List Nat) (done : Bool)
  | flowPair (entries : List (Nat × Nat)) (place : Place)
  | flowMap (entries : List (Nat × Nat)) (place : Place)

inductive Wanted
  | block
  | blockOrCompact
  | flow
  | flowOrPair
  deriving DecidableEq

def Wanted.admits (w : Wanted) (p : Properties) : Token → Bool
  | .scalar _ _ | .flowListStart | .flowMapStart => true
  | .alias _ => p.isEmpty
  | .anchor _ => p.anchor.isNone
  | .tag _ _ => p.tag.isNone
  | .listStart | .mapStart => w = block || w = blockOrCompact
  | .item => w = blockOrCompact
  | .key => w = flowOrPair && p.isEmpty
  | _ => false

namespace Frame

def wanted? : Frame → Option Wanted
  | start directives => if directives then none else some .block
  | opened => some .block
  | document _ | ended => none
  | blockList _ _ wants => if wants then some .block else none
  | blockMap _ .key | blockMap _ (.value _) => some .blockOrCompact
  | flowList _ done => if done then none else some .flowOrPair
  | flowPair _ .key | flowPair _ (.value _) => some .flow
  | flowMap _ .key | flowMap _ (.value _) | flowMap _ .entry => some .flow
  | _ => none

def give : Frame → Nat → Frame
  | start _, n => document n
  | opened, n => document n
  | document r, _ => document r
  | ended, _ => ended
  | blockList c ns _, n => blockList c (n :: ns) false
  | blockMap es .key, n => blockMap es (.afterKey n)
  | blockMap es (.value k), n => blockMap ((k, n) :: es) .entry
  | flowList ns _, n => flowList (n :: ns) true
  | flowPair es .key, n => flowPair es (.afterKey n)
  | flowPair es (.value k), n => flowPair ((k, n) :: es) .done
  | flowMap es .key, n => flowMap es (.afterKey n)
  | flowMap es (.value k), n => flowMap ((k, n) :: es) .done
  | flowMap es .entry, n => flowMap ((n, Graph.left) :: es) .done
  | f, _ => f

def leavesOut : Frame → Token → Bool
  | opened, .directive _ | opened, .documentStart | opened, .documentEnd | opened, .finish => true
  | blockList _ _ true, .item | blockList _ _ true, .blockEnd => true
  | blockList true _ true, .key | blockList true _ true, .value => true
  | blockMap _ .key, .key | blockMap _ .key, .value | blockMap _ .key, .blockEnd => true
  | blockMap _ (.value _), .key | blockMap _ (.value _), .value | blockMap _ (.value _), .blockEnd => true
  | flowPair _ .key, .value | flowPair _ .key, .separator | flowPair _ .key, .flowListEnd => true
  | flowPair _ (.value _), .separator | flowPair _ (.value _), .flowListEnd => true
  | flowMap _ .key, .value | flowMap _ .key, .separator | flowMap _ .key, .flowMapEnd => true
  | flowMap _ (.value _), .separator | flowMap _ (.value _), .flowMapEnd => true
  | _, _ => false

def endKey : Frame → Token → Frame
  | f, .value => f
  | blockMap es (.afterKey k), _ => blockMap ((k, Graph.left) :: es) .entry
  | flowPair es (.afterKey k), _ => flowPair ((k, Graph.left) :: es) .done
  | flowMap es (.afterKey k), _ => flowMap ((k, Graph.left) :: es) .done
  | f, _ => f

def settle (f : Frame) (t : Token) : Frame :=
  (if f.leavesOut t then f.give Graph.left else f).endKey t

inductive Effect
  | change (f : Frame)
  | close
  | closed
  | direct (d : Directive)
  | none

def effect : Frame → Token → Effect
  | start _, .documentStart => .change opened
  | start false, .finish => .change (document Graph.left)
  | start _, .directive d | document _, .directive d | ended, .directive d => .direct d
  | document n, .documentEnd | document n, .finish => .change (document n)
  | blockList c ns false, .item => .change (blockList c ns true)
  | blockList false _ false, .blockEnd => .close
  | blockList true _ false, _ => .closed
  | blockMap es .entry, .key => .change (blockMap es .key)
  | blockMap _ .entry, .blockEnd => .close
  | blockMap es (.afterKey k), .value => .change (blockMap es (.value k))
  | flowList ns true, .separator => .change (flowList ns false)
  | flowList _ _, .flowListEnd => .close
  | flowPair es (.afterKey k), .value => .change (flowPair es (.value k))
  | flowPair _ .done, _ => .closed
  | flowMap es .entry, .key => .change (flowMap es .key)
  | flowMap es (.afterKey k), .value => .change (flowMap es (.value k))
  | flowMap es .done, .separator => .change (flowMap es .entry)
  | flowMap _ .entry, .flowMapEnd | flowMap _ .done, .flowMapEnd => .close
  | _, _ => .none

def node (p : Properties) : Frame → Node
  | blockList _ ns _ | flowList ns _ => .list (p.groupTag .list) ns.reverse
  | blockMap es _ | flowPair es _ | flowMap es _ => .map (p.groupTag .map) es.reverse
  | start _ | opened | document _ | ended => .empty

end Frame

structure Open where
  properties : Properties := {}
  number : Nat := Graph.left
  frame : Frame

structure Machine where
  stack : List Open := [{ frame := .start false }]
  graph : Graph := {}
  anchors : List (String × Nat) := []
  pending : Properties := {}
  versioned : Bool := false
  handles : List (String × String) := []
  /-- Whether the handle of the last tag stands for nothing, which is not noticed before the next token. -/
  astray : Bool := false

namespace Machine

def record? (m : Machine) (anchor : Option String) (n : Nat) : Option Machine :=
  match anchor with
  | none => some m
  | some a => if (m.anchors.lookup a).isSome then none else some { m with anchors := (a, n) :: m.anchors }

def give? (m : Machine) (n : Nat) : Option Machine :=
  match m.stack with
  | [] => none
  | o :: r => some { m with stack := { o with frame := o.frame.give n } :: r, pending := {} }

def giveScalar? (m : Machine) (text : String) (plain : Bool) : Option Machine := do
  let (graph, n) := m.graph.add (.scalar (m.pending.scalarTag text plain) text)
  (← { m with graph }.record? m.pending.anchor n).give? n

def push? (m : Machine) (f : Frame) : Option Machine := do
  let (graph, n) := m.graph.add .empty
  let m ← { m with graph }.record? m.pending.anchor n
  return { m with stack := ⟨m.pending, n, f⟩ :: m.stack, pending := {} }

def commonHandles : List (String × String) := [("!", "!"), ("!!", Tag.space)]

def tag? (m : Machine) (handle : Option String) (suffix : String) : Option String :=
  match handle with
  | none => some suffix
  | some h => ((m.handles ++ commonHandles).lookup h).map (· ++ suffix)

def note? (m : Machine) : Directive → Option Machine
  | .version major => if m.versioned || major ≠ 1 then none else some { m with versioned := true }
  | .handle name lead =>
    if (m.handles.lookup name).isSome then none else some { m with handles := (name, lead) :: m.handles }
  | .other => some m

def direct? (m : Machine) (d : Directive) : Option Machine :=
  match m.stack with
  | [{ frame := .start _, .. }] => { m with stack := [{ frame := .start true }] }.note? d
  | [{ frame := .document _, .. }] =>
    { m with stack := [{ frame := .ended }], versioned := false, handles := [] }.note? d
  | [{ frame := .ended, .. }] => m.note? d
  | _ => none

def start? (m : Machine) : Token → Option Machine
  | .scalar s plain => m.giveScalar? s plain
  | .alias a => do m.give? (← m.anchors.lookup a)
  | .anchor a => some { m with pending := { m.pending with anchor := some a } }
  | .tag h s =>
    match m.tag? h s with
    | some t => some { m with pending := { m.pending with tag := some t } }
    | none => if m.pending.anchor.isNone then some { m with astray := true } else none
  | .listStart => m.push? (.blockList false [] false)
  | .mapStart => m.push? (.blockMap [] .entry)
  | .item => m.push? (.blockList true [] true)
  | .flowListStart => m.push? (.flowList [] false)
  | .flowMapStart => m.push? (.flowMap [] .entry)
  | .key => m.push? (.flowPair [] .key)
  | _ => none

def pop? (m : Machine) (o : Open) (r : List Open) : Option Machine :=
  { m with stack := r, graph := m.graph.set o.number (o.frame.node o.properties) }.give? o.number

theorem length_of_give? {m k : Machine} {n : Nat} (h : m.give? n = some k) :
    k.stack.length = m.stack.length := by
  unfold give? at h
  split at h
  · simp at h
  · rename_i hs
    obtain rfl := Option.some.inj h
    simp [hs]

theorem length_of_pop? {m k : Machine} {o : Open} {r : List Open} (h : m.pop? o r = some k) :
    k.stack.length = r.length := length_of_give? h

def fit? (m : Machine) (t : Token) : Option Machine :=
  match hs : m.stack with
  | [] => none
  | o :: r =>
    let o := { o with frame := o.frame.settle t }
    let m := { m with stack := o :: r }
    if o.frame.wanted?.any (·.admits m.pending t) then m.start? t
    else match o.frame.effect t with
      | .direct d => m.direct? d
      | .change g => some { m with stack := { o with frame := g } :: r }
      | .close => m.pop? o r
      | .closed =>
        match _hg : m.pop? o r with
        | some m' => m'.fit? t
        | none => none
      | .none => none
termination_by m.stack.length
decreasing_by
  have := length_of_pop? _hg
  simp_all

def step? (m : Machine) (t : Token) : Option Machine := do
  let wanted := (m.stack.head?.map fun o => o.frame.wanted?).join
  let m ← if m.pending.isEmpty || wanted.any (·.admits m.pending t) then some m
    else do
      let (graph, n) := m.graph.add (.scalar (m.pending.scalarTag "" true) "")
      (← { m with graph }.record? m.pending.anchor n).give? n
  m.fit? t

def deepest : Nat := 490

def step (m : Machine) : Token → Except Obstacle Machine
  | .broken why => throw why
  | t => do
    if m.astray then throw .malformed
    let m ← orMalformed (m.step? t)
    if deepest < m.stack.length then throw (.fault (.tooDeep .node)) else return m

end Machine

def Graph.ofTokens (ts : List Token) : Except Obstacle (Graph × Nat) := do
  let m ← ts.foldlM Machine.step {}
  match m.stack with
  | [{ frame := .document n, .. }] => return (m.graph, n)
  | _ => throw .malformed

end PhpScaffold.Yaml
