import PhpScaffold.Command.Registry
import PhpScaffold.Config.Load
import PhpScaffold.Generate
import PhpScaffold.Service.Message
import PhpScaffold.Service.Plain
import PhpScaffold.Tool.Validate

namespace PhpScaffold.Service

def refusal (f : Fault) : Response :=
  match f.category, f.entry? with
  | .batch, some key => ⟨422, .json (.dict [(.text "detail", .text f.message), (.text "key", .text key)])⟩
  | c, _ => if c.isUsage then .detail 400 (.text f.message) else ⟨500, .text "Internal Server Error"⟩

def answer (r : Except Fault Value) : Response :=
  match r.bind plain with
  | .ok v => ⟨200, .json v⟩
  | .error f => refusal f

def listing (t : Tree) (place : Path) (plugins : List Plugin) : Except Fault Value := do
  let c ← Config.load t place
  let cs ← Command.discover plugins c.commands
  return .list (cs.map Tool.toValue)

/-- A tool goes by its own name and by that of its command. -/
def find? (cs : List Command) (name : String) : Option Command :=
  cs.find? fun c => c.name = name || Tool.name c = name

def previewValue (p : Preview) : Value :=
  .dict [(.text "file_path", .text p.path.text), (.text "class_name", p.className),
    (.text "namespace", .text p.scope), (.text "content", .text p.content)]

def report (c : Command) (dryRun : Bool) (paths : List Path) (ps : List Preview) : Value :=
  .dict [(.text "command", .text c.name), (.text "dry_run", .bool dryRun),
    (.text "files", .list (paths.map fun p => .text p.text)), (.text "previews", .list (ps.map previewValue))]

def perform (t : Tree) (engine : Engine) (cfg : Config) (c : Command) (values : Table Value) :
    Tree × Except Fault Value :=
  match (c.handle (Tool.params c values)).2 with
  | .error f => (t, .error f)
  | .ok p =>
    if Tool.isDryRun values then
      let run := cfg.previews engine t p
      (t, run.result.map fun ps => report c true [] ps)
    else
      let run := cfg.generate engine t p false
      (run.tree, run.result.map fun paths => report c false paths [])

def call (t : Tree) (place : Path) (host : Host) (name : String) (given : Except BodyFault (List (Value × Value))) :
    Tree × Response :=
  match Config.load t place with
  | .error f => (t, refusal f)
  | .ok cfg =>
    match given with
    | .error f => (t, f.response)
    | .ok given =>
      match Command.discover host.plugins cfg.commands with
      | .error f => (t, refusal f)
      | .ok cs =>
        match find? cs name with
        | none => (t, .detail 404 (.text ("Unknown tool '" ++ name ++ "'")))
        | some c =>
          match Tool.validate c given with
          | .error f => (t, refusal f)
          | .ok values =>
            let (t, result) := perform t host.engine cfg c values
            (t, answer result)

def dispatch (t : Tree) (place : Path) (host : Host) (q : Request) : Tree × Response :=
  match Route.ofPath? q.path with
  | none => (t, if Route.isRedirected q.path then ⟨307, .text ""⟩ else .detail 404 (.text "Not Found"))
  | some route =>
    if q.method ∉ route.methods then (t, .detail 405 (.text "Method Not Allowed"))
    else match route with
      | .page => (t, ⟨200, .text ""⟩)
      | .health => (t, ⟨200, .json (.dict [(.text "status", .text "ok")])⟩)
      | .tools => (t, answer (listing t place host.plugins))
      | .tool name =>
        match parameters q.body with
        | .error f => if f.isEarly then (t, f.response) else call t place host name (.error f)
        | given => call t place host name given

def respond (t : Tree) (place : Path) (host : Host) (q : Request) : Tree × Response :=
  let (t, r) := dispatch t place host q
  (t, r.sent)

end PhpScaffold.Service
