import PhpScaffold.Files.Tree
import PhpScaffold.Log.Format

namespace PhpScaffold

inductive Level
  | debug
  | info
  | warning
  | error
  | critical
  deriving DecidableEq

namespace Level

def name : Level → String
  | debug => "DEBUG"
  | info => "INFO"
  | warning => "WARNING"
  | error => "ERROR"
  | critical => "CRITICAL"

def number : Level → Nat
  | debug => 10
  | info => 20
  | warning => 30
  | error => 40
  | critical => 50

def all : List Level := [debug, info, warning, error, critical]

def read (s : String) : Except Fault (Option Level) :=
  match s with
  | "NOTSET" => return none
  | "WARN" => return warning
  | "FATAL" => return critical
  | s => match all.find? (·.name = s) with
    | some l => return l
    | none => throw (.noOperation "module" s)

end Level

structure Record where
  component : String := ""
  level : Level
  text : String
  deriving DecidableEq

namespace Record

def rootLogger : String := "phpgen"

def logger (component : String) : String :=
  if component.isEmpty then rootLogger else rootLogger ++ "." ++ component

def console (r : Record) : String :=
  let source := if r.component.isEmpty then rootLogger else rootLogger ++ ":" ++ r.component
  "[" ++ source ++ "] " ++ r.level.name ++ " " ++ r.text ++ "\n"

def line (r : Record) : String :=
  r.level.name ++ " " ++ logger r.component ++ ": " ++ r.text ++ "\n"

end Record

structure Logging where
  verbose : Bool := false
  file : Option Path := none
  deriving DecidableEq

namespace Logging

def consoleLevel (s : Logging) : Level := if s.verbose then .debug else .info

def level (s : Logging) : Level := if s.verbose || s.file.isSome then .debug else .info

def handlers (s : Logging) : List Level :=
  s.consoleLevel :: if s.file.isSome then [.debug] else []

def console (s : Logging) (r : Record) : String :=
  if s.consoleLevel.number ≤ r.level.number then r.console else ""

end Logging

inductive Event
  | asked (key : String)
  | probed (name : String) (found : Nat)
  | unmapped (scope path : String)
  | built (key : String)
  | building (count : Nat)
  | notWritten (count : Nat)
  | generated (path : String)
  | wouldWrite (path : String)
  | running (tool : String)
  deriving DecidableEq

namespace Event

def message? : Event → Option (String × Level × String × List Value)
  | asked _ => none
  | probed name found => some ("blueprint", .debug, "Probe of %s found %d dependencies", [.text name, .int found])
  | unmapped scope path =>
    some ("path_resolver", .debug, "No PSR-4 mapping for '%s'; using %s", [.text scope, .text path])
  | built key => some ("project", .debug, "Built %s", [.text key])
  | building count => some ("generator", .info, "Building %d artifact(s)", [.int count])
  | notWritten count => some ("generator", .info, "Dry-run completed; %d file(s) not written", [.int count])
  | generated path => some ("writer", .info, "Generated %s", [.text path])
  | wouldWrite path => some ("writer", .info, "Dry-run: would write %s", [.text path])
  | running tool => some ("service", .info, "Running tool %s", [.text tool])

def record? (e : Event) : Option Record := do
  let (component, level, message, values) ← e.message?
  return ⟨component, level, ← Log.text? message values⟩

end Event

namespace Logging

def openFile (s : Logging) (cwd : Path) (t : Tree) : Except Fault Tree :=
  match s.file with
  | none => return t
  | some p => do
    let place := (cwd.join p).normalize
    let t ← match t.makeDirectories (cwd.join p.parent) with
      | .ok t => pure t
      | .error (.system cause path) =>
        throw (.system cause (if p.absolute then path else ((Path.ofText path).relativeTo cwd).text))
      | .error f => throw f
    match t.at? place with
    | some (.file _) => return t
    | _ => t.write place .empty

/-- Adds records to the end of the log file; without one they leave no trace, nor do those that cannot be stored. -/
def append (s : Logging) (cwd : Path) (t : Tree) (rs : List Record) : Tree :=
  match s.file with
  | none => t
  | some p =>
    let place := (cwd.join p).normalize.parts
    let lines := (rs.map Record.line).filter fun l => (storable l).toBool
    match t.get? place with
    | some (.file bytes) => t.put place (.file (bytes ++ Text.bytes (String.join lines)))
    | _ => t

end Logging

end PhpScaffold
