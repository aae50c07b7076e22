import PhpScaffold.Table
import PhpScaffold.Text.Blank

namespace PhpScaffold.PropertyList

def nesting (c : Char) : Int :=
  if c = '<' ∨ c = '(' then 1 else if c = '>' ∨ c = ')' then -1 else 0

structure State where
  name : Option String := none
  pending : List Char := []
  depth : Int := 0
  found : Table String := {}

namespace State

def pendingText (s : State) : String :=
  Text.trim Text.isBlank (.ofList s.pending.reverse)

def flush (s : State) : State :=
  let type := s.pendingText
  match s.name with
  | some name =>
    if name.isEmpty || type.isEmpty then { depth := s.depth, found := s.found }
    else { depth := s.depth, found := s.found.insert name type }
  | none => { depth := s.depth, found := s.found }

def step (s : State) (c : Char) : State :=
  if c = ':' ∧ s.depth = 0 ∧ s.name = none then { s with name := some s.pendingText, pending := [] }
  else if c = ',' ∧ s.depth = 0 then s.flush
  else { s with pending := c :: s.pending, depth := s.depth + nesting c }

end State

def parse (text : String) : Table String :=
  (text.toList.foldl State.step {}).flush.found

end PhpScaffold.PropertyList
