import PhpScaffold.CommandLine.Grammar

namespace PhpScaffold.CommandLine

structure Sighting where
  flag : Flag
  spelling : String
  text : Option (List Char) := none

inductive Mark
  | word
  | dashes
  | flag (s : Sighting)
  | unknown

def Mark.isFlag : Mark → Bool
  | flag _ | unknown => true
  | _ => false

namespace Grammar

def spellings (g : Grammar) : List (String × Flag) :=
  g.flags.flatMap fun f => f.spellings.map fun s => (s, f)

def flag? (g : Grammar) (spelling : String) : Option Flag := g.spellings.lookup spelling

def cutEquals (w : List Char) : List Char × Option (List Char) :=
  match w.dropWhile (· ≠ '=') with
  | [] => (w, none)
  | _ :: r => (w.takeWhile (· ≠ '='), some r)

def candidates (g : Grammar) (w : List Char) : List Sighting :=
  let (short, behind) := (Text.characters w).splitAt 2
  if short.flatten = ['-', '-'] then
    let (lead, text) := cutEquals w
    g.spellings.filterMap fun (s, f) =>
      if lead.isPrefixOf s.toList then some ⟨f, s, text⟩ else none
  else
    g.spellings.filterMap fun (s, f) =>
      if s.toList = short.flatten then some ⟨f, s, some behind.flatten⟩
      else if w.isPrefixOf s.toList then some ⟨f, s, none⟩
      else none

def hasNumberFlag (g : Grammar) : Bool := g.spellings.any fun e => isNegativeNumber e.1.toList

def mark (g : Grammar) (word : String) : Except Refusal Mark :=
  let w := word.toList
  if w.head? ≠ some '-' then return .word
  else match g.flag? word with
    | some f => return .flag ⟨f, word, none⟩
    | none =>
      if w.length = 1 then return .word
      else
        let (lead, text) := cutEquals w
        match text, g.flag? (.ofList lead) with
        | some r, some f => return .flag ⟨f, .ofList lead, some r⟩
        | _, _ =>
          match g.candidates w with
          | [s] => return .flag s
          | [] =>
            if (isNegativeNumber w && !g.hasNumberFlag) || w.contains ' ' then return .word else return .unknown
          | ss => throw (.ambiguous word (ss.map Sighting.spelling))

def marks (g : Grammar) : List String → Except Refusal (List (String × Mark))
  | [] => return []
  | w :: r =>
    if w = "--" then return (w, .dashes) :: r.map fun v => (v, .word)
    else do return (w, ← g.mark w) :: (← g.marks r)

end Grammar

end PhpScaffold.CommandLine
