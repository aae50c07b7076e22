import PhpScaffold.CommandLine.Interface
import PhpScaffold.Config.Load
import PhpScaffold.Generate
import PhpScaffold.Log

namespace PhpScaffold.CommandLine

structure Outcome where
  tree : Tree
  code : Nat := 0
  stdout : String := ""
  stderr : String := ""
  served : Option (Value × Value) := none

def printed (lines : List String) : String := String.join (lines.map (· ++ "\n"))

def padRight (width : Nat) (s : String) : String :=
  s ++ String.ofList (List.replicate (width - Text.size s) ' ')

def shownLines : Nat := 20

def excerpt (content : String) : String :=
  let lines := Text.lines content
  let shown := "\n".intercalate (lines.take shownLines)
  if shownLines < lines.length then
    shown ++ "\n... (truncated, " ++ toString (lines.length - shownLines) ++ " more lines)"
  else shown

def previewLines (verbose : Bool) (cwd : Path) (p : Preview) : List String :=
  ["", p.className.display, "File: " ++ (p.path.relativeTo cwd).text, "Class: " ++ p.className.display,
    "Namespace: " ++ p.scope] ++
    if verbose then ["Content preview:", excerpt p.content] else []

def previewsLines (verbose : Bool) (cwd : Path) : List Preview → List String
  | [] => ["No files would be generated"]
  | ps => "Files that would be generated:" :: ps.flatMap (previewLines verbose cwd) ++
      if verbose then [] else ["", "Use -v to see content previews"]

def failure (f : Fault) : String :=
  if f.category.isUsage then "Configuration error: " ++ f.text ++ "\n"
  else "Generation failed: " ++ f.text ++ "\nRun with --verbose for more details.\n"

structure Work where
  tree : Tree
  events : List Event
  lines : List String
  fault : Option Fault := none

def work (t : Tree) (cwd : Path) (host : Host) (c : Config) (command : Command) (params : Params)
    (dryRun verbose : Bool) : Work :=
  let (events, project) := command.handle params
  match project with
  | .error f => ⟨t, events, [], some f⟩
  | .ok p =>
    let head := if dryRun then "Preview mode - no files will be created" else "Generating files..."
    match host.output.encode head with
    | .error f => ⟨t, events, [], some f⟩
    | .ok () =>
      if dryRun then
        let run := c.previews host.engine t p
        match run.result with
        | .error f => ⟨t, events ++ run.events, [head], some f⟩
        | .ok ps =>
          let (said, fault) := host.output.say (previewsLines verbose cwd ps)
          ⟨t, events ++ run.events, head :: said, fault⟩
      else
        let run := c.generate host.engine t p false
        match run.result with
        | .error f => ⟨run.tree, events ++ run.events, [head], some f⟩
        | .ok paths =>
          let generated := paths.map fun q => "Generated " ++ (q.relativeTo cwd).text
          let (said, fault) := host.output.say (generated ++ ["Code generation completed successfully!"])
          ⟨run.tree, events ++ run.events, head :: said, fault⟩

def halted (t : Tree) (h : Halt) : Outcome :=
  match h.stop with
  | .help => { tree := t }
  | .refused why => { tree := t, code := 2, stderr := h.program ++ ": error: " ++ why.message ++ "\n" }

def takes (gs : Grammars) (i : Invocation) (key : String) : Bool :=
  (gs.lookup i.command).any fun g => g.positionals.any (·.name = key) || g.flags.any (·.key = key)

def logging (gs : Grammars) (i : Invocation) : Except Fault Logging := do
  let verbose := i.truthy "verbose"
  match i.values.get? logFlag.key with
  | some .null | none => return { verbose }
  | some v =>
    match v, takes gs i logFlag.key with
    | .text s, false => return { verbose, file := some (.ofText s) }
    | v, _ => throw (.noOperation v.typeName "parent")

def handler (gs : Grammars) (i : Invocation) (c : Command) : Except Fault Command :=
  if takes gs i handlerKey then
    match i.values.get? handlerKey with
    | none | some (.foreign _) => return c
    | some v => throw (.noOperation v.typeName "arguments")
  else return c

def perform (t : Tree) (cwd : Path) (host : Host) (c : Config) (cs : List Command) (gs : Grammars) (i : Invocation) :
    Except Fault Outcome := do
  let logging ← logging gs i
  let t ← logging.openFile cwd t
  let chosen := i.values.get? commandKey
  if chosen.any (·.same serveName) then
    match i.values.get? hostKey, i.values.get? portKey with
    | some host, some port => return { tree := t, served := some (host, port) }
    | none, _ => throw (.noOperation "Namespace" hostKey)
    | _, none => throw (.noOperation "Namespace" portKey)
  match if chosen.any (·.same listName) then none else cs.find? (·.name = i.command) with
  | none =>
    let (said, fault) := host.output.say (cs.map fun c => padRight 20 c.name ++ " " ++ c.description)
    if let some f := fault then throw f
    return { tree := t, stdout := printed said }
  | some command =>
    match handler gs i command with
    | .error f => return { tree := t, code := 1, stderr := failure f }
    | .ok command =>
      let w := work t cwd host c command (i.params command) (i.truthy "dry_run") logging.verbose
      let records := w.events.filterMap Event.record?
      return {
        tree := logging.append cwd w.tree records
        code := if w.fault.isSome then 1 else 0
        stdout := printed w.lines
        stderr := String.join (records.map logging.console) ++ (w.fault.map failure).getD "" }

def prepare (t : Tree) (place : Path) (plugins : List Plugin) : Except Fault (Config × List Command) := do
  let c ← Config.load t place
  return (c, ← Command.discover plugins c.commands)

def configPlace (cwd : Path) (r : Reading) : Path :=
  match r.values.get? configFlag.key with
  | some (.text s) => if s.isEmpty then cwd else cwd.child s
  | _ => cwd

/-- Runs the program in a directory.  A fault that is not the user's to mend escapes. -/
def run (t : Tree) (cwd : Path) (host : Host) (words : List String) : Except Fault Outcome :=
  match configGrammar.read words with
  | .error stop => return halted t ⟨program, stop⟩
  | .ok r =>
    match prepare t (configPlace cwd r) host.plugins with
    | .error f =>
      if f.category = .configuration then
        return { tree := t, code := 1, stderr := "Configuration error: " ++ f.text ++ "\n" }
      else throw f
    | .ok (c, cs) => do
      let gs ← grammars cs
      match Invocation.read gs words with
      | .error h => return halted t h
      | .ok i => perform t cwd host c cs gs i

end PhpScaffold.CommandLine
