import PhpScaffold.CommandLine.Mark

namespace PhpScaffold.CommandLine

structure Reading where
  values : Table Value := {}
  left : List Positional
  command : Option (List String) := none
  extras : List String := []

def Arity.lengths (a : Arity) (ms : List Mark) : List Nat :=
  let dashes (ms : List Mark) := (ms.takeWhile fun m => match m with
    | .dashes => true
    | _ => false).length
  let lead := dashes ms
  match a, ms.drop lead with
  | .command _, .word :: _ => [ms.length]
  | .command _, _ => []
  | a, .word :: r =>
    ((List.range (dashes r + 1)).reverse.map (lead + 1 + ·)) ++
      if a = .optional then (List.range (lead + 1)).reverse else []
  | a, _ => if a = .optional then (List.range (lead + 1)).reverse else []

/-- Shares marks out among positionals; one that may take more leaves what the later ones need. -/
def share? : List Arity → List Mark → Option (List Nat)
  | [], _ => some []
  | a :: r, ms => (a.lengths ms).findSome? fun n => (share? r (ms.drop n)).map (n :: ·)

def shares (as : List Arity) (ms : List Mark) : List Nat :=
  ((List.range (as.length + 1)).reverse.findSome? fun i => share? (as.take i) ms).getD []

abbrev Taken := Flag × Option String

/-- The flags in a word: after a short one that takes nothing, further ones may follow with one dash for all.  The text
behind the first one comes character by character.  `next` is the word behind it, if it may be a value.  The answer
also says whether that word was used. -/
def Grammar.cluster (g : Grammar) (next : Option String) (f : Flag) (spelling : String) :
    Option (List (List Char)) → Except Refusal (List Taken × Bool)
  | none =>
    if f.takesValue then
      match next with
      | some w => return ([(f, some w)], true)
      | none => if f.intake = .textOrNothing then return ([(f, none)], false) else throw (.valueMissing f.title)
    else return ([(f, none)], false)
  | some text =>
    if f.takesValue then return ([(f, some (.ofList text.flatten))], false)
    else match text with
      | [] => throw (.valueIgnored f.title "")
      | c :: r =>
        let short := String.ofList ('-' :: c)
        match if spelling.toList[1]? = some '-' then none else g.flag? short with
        | none => throw (.valueIgnored f.title (.ofList (c ++ r.flatten)))
        | some h =>
          (g.cluster next h short (if r.isEmpty then none else some r)).map fun (taken, used) =>
            ((f, none) :: taken, used)
termination_by text => (text.map List.length).getD 0
decreasing_by cases r <;> simp

namespace Reading

def put (s : Reading) (key : String) (v : Value) : Reading := { s with values := s.values.insert key v }

def worth (words : List String) : List String := words.erase "--"

def gathered (words : List String) : Value :=
  match worth words with
  | [w] => .text w
  | ws => .list (ws.map .text)

/-- Stores what a flag takes.  Of two dashes nothing is left, neither a text nor a number. -/
def takeFlag (s : Reading) : Taken → Except Stop Reading
  | (f, text) => match f.intake with
    | .help => throw .help
    | .nothing => return s.put f.key (.bool true)
    | .text => return s.put f.key (gathered text.toList)
    | .textOrNothing => return s.put f.key (((worth text.toList).head?.map Value.text).getD .null)
    | .number => match worth text.toList with
      | [] => return s.put f.key (.list [])
      | w :: _ => match Decimal.readWhole 10 w with
        | .ok n => return s.put f.key (.int n)
        | .error _ => throw (.refused (.notNumber f.title w))

def takePositional (s : Reading) (p : Positional) (words : List String) : Except Stop Reading :=
  match p.arity with
  | .command names =>
    match words with
    | [] => return s
    | w :: _ =>
      if w ∈ names then return { s.put p.name (.text w) with command := some words }
      else throw (.refused (.notChoice p.name w names))
  | .optional => return s.put p.name (((worth words).head?.map Value.text).getD p.default)
  | .one => return s.put p.name (gathered words)

def takePositionals (s : Reading) (words : List (String × Mark)) : Except Stop (Reading × Nat) :=
  go s (shares (s.left.map Positional.arity) (words.map Prod.snd)) (words.map Prod.fst)
where
  go (s : Reading) : List Nat → List String → Except Stop (Reading × Nat)
    | n :: ns, ws =>
      match s.left with
      | [] => return (s, 0)
      | p :: ps => do
        let s ← { s with left := ps }.takePositional p (ws.take n)
        let (s, k) ← go s ns (ws.drop n)
        return (s, n + k)
    | [], _ => return (s, 0)

def takeSighting (g : Grammar) (s : Reading) (x : Sighting) (behind : List (String × Mark)) :
    Except Stop (Reading × Bool) :=
  let next := match behind with
    | (w, .word) :: _ => some w
    | _ => none
  match g.cluster next x.flag x.spelling (x.text.map Text.characters) with
  | .error r => throw (.refused r)
  | .ok (taken, used) => do return (← taken.foldlM takeFlag s, used)

def finish (s : Reading) (words : List (String × Mark)) : Except Stop Reading := do
  let (s, n) ← s.takePositionals words
  match s.left.filter (·.arity ≠ .optional) with
  | [] => return { s with extras := s.extras ++ (words.drop n).map Prod.fst }
  | ps => throw (.refused (.missing (ps.map Positional.name)))

theorem length_dropWhile_le (p : α → Bool) (l : List α) : (l.dropWhile p).length ≤ l.length :=
  (List.dropWhile_sublist p).length_le

def isFlag (e : String × Mark) : Bool := e.2.isFlag

def run (g : Grammar) (s : Reading) (words : List (String × Mark)) : Except Stop Reading :=
  if !words.any isFlag then s.finish words
  else match words with
    | [] => s.finish []
    | (w, .unknown) :: r => { s with extras := s.extras ++ [w] }.run g r
    | (_, .flag x) :: r => do
      let (s, used) ← takeSighting g s x r
      s.run g (r.drop (if used then 1 else 0))
    | e :: r => do
      match ← s.takePositionals (e :: r) with
      | (s, 0) =>
        let others := r.takeWhile (!isFlag ·)
        { s with extras := s.extras ++ (e :: others).map Prod.fst }.run g (r.dropWhile (!isFlag ·))
      | (s, n + 1) => s.run g (r.drop n)
termination_by words.length
decreasing_by all_goals grind [length_dropWhile_le]

end Reading

def Grammar.defaults (g : Grammar) : Table Value :=
  ((g.positionals.map fun p => (p.name, p.default)) ++
    g.flags.filterMap fun f => f.default.map fun d => (f.key, d)).foldl
    (fun t e => if t.contains e.1 then t else t.insert e.1 e.2) {}

def Grammar.read (g : Grammar) (words : List String) : Except Stop Reading := do
  let words ← (g.marks words).mapError .refused
  ({ values := g.defaults, left := g.positionals } : Reading).run g words

end PhpScaffold.CommandLine
