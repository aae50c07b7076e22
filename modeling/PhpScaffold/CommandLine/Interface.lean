import PhpScaffold.Command.Registry
import PhpScaffold.CommandLine.Reading

namespace PhpScaffold.CommandLine

def program : String := "phpgen"

def helpFlag : Flag := { spellings := ["-h", "--help"], intake := .help }

def verboseFlag (default : Option Value) : Flag := { spellings := ["-v", "--verbose"], key := "verbose", default }

def configFlag : Flag :=
  { spellings := ["-c", "--config"], key := "config", intake := .text, default := some .null }

def logFlag : Flag := { spellings := ["--log-file"], key := "log_file", intake := .text, default := some .null }

def dryRunFlag : Flag := { spellings := ["--dry-run"], key := "dry_run", default := some (.bool false) }

def optionKey (name : String) : String := "option_" ++ Text.replace '-' '_' name

def optionFlag (o : Choice) : Flag where
  spellings := ("--" ++ o.name) :: match o.shortcut with
    | none | some "" => []
    | some s => ["-" ++ s]
  key := optionKey o.name
  intake := if o.takesValue then .text else .nothing
  default := some o.fallback

def helpAnd (name : String) (flags : List Flag) : Grammar where
  program := program ++ " " ++ name
  flags := [helpFlag, verboseFlag none] ++ flags

def handlerKey : String := "handler"

def ofCommand (c : Command) : Except Fault Grammar := do
  let g ← c.arguments.foldlM (fun g a => g.addArgument a.name a.required) (helpAnd c.name [])
  let g ← (c.options.map optionFlag).foldlM Grammar.addFlag g
  return (← g.addFlag dryRunFlag).withDefault handlerKey (.foreign "Command")

def listName : String := "list"

def serveName : String := "serve"

def listGrammar : Grammar := helpAnd listName []

def hostKey : String := "host"

def portKey : String := "port"

def serveGrammar : Grammar := helpAnd serveName [
  { spellings := ["--host"], key := hostKey, intake := .text, default := some (.text "127.0.0.1") },
  { spellings := ["--port"], key := portKey, intake := .number, default := some (.int 8000) }]

abbrev Grammars := List (String × Grammar)

def Grammars.add (gs : Grammars) (name : String) (g : Except Fault Grammar) : Except Fault Grammars :=
  if (gs.lookup name).isSome then throw (.commandClash name) else return gs ++ [(name, ← g)]

def grammars (cs : List Command) : Except Fault Grammars := do
  let gs ← cs.foldlM (fun gs c => Grammars.add gs c.name (ofCommand c)) []
  let gs ← Grammars.add gs listName (.ok listGrammar)
  Grammars.add gs serveName (.ok serveGrammar)

def commandKey : String := "subcommand"

def mainGrammar (gs : Grammars) : Grammar where
  program := program
  flags := [helpFlag, verboseFlag (some (.bool false)), configFlag, logFlag]
  positionals := [{ name := commandKey, arity := .command (gs.map Prod.fst) }]

def configGrammar : Grammar := { program := program, flags := [configFlag] }

structure Invocation where
  command : String
  values : Table Value

def Invocation.truthy (i : Invocation) (key : String) : Bool := ((i.values.get? key).getD .null).truthy

structure Halt where
  program : String
  stop : Stop

def Invocation.read (gs : Grammars) (words : List String) : Except Halt Invocation := do
  let front := mainGrammar gs
  let outer ← (front.read words).mapError (⟨front.program, ·⟩)
  match outer.command with
  | some (name :: rest) =>
    match gs.lookup name with
    | none => throw ⟨front.program, .refused (.missing [commandKey])⟩
    | some g =>
      let inner ← (g.read rest).mapError (⟨g.program, ·⟩)
      match outer.extras ++ inner.extras with
      | [] => return ⟨name, outer.values.insertAll inner.values.entries⟩
      | extras => throw ⟨front.program, .refused (.unrecognized extras)⟩
  | _ => throw ⟨front.program, .refused (.missing [commandKey])⟩

def Invocation.params (i : Invocation) (c : Command) : Params :=
  let value key := (i.values.get? key).getD .null
  .ofList <| (c.arguments.map fun a => (a.name, value a.name)) ++
    c.options.map fun o => (o.name, value (optionKey o.name))

end PhpScaffold.CommandLine
