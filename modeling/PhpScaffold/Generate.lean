import PhpScaffold.Config
import PhpScaffold.Project
import PhpScaffold.Template.Read

namespace PhpScaffold

structure Preview where
  path : Path
  content : String
  className : Value
  scope : String

structure Run (α : Type) where
  tree : Tree
  project : Project
  events : List Event := []
  result : Except Fault α

namespace Config

def className (name : String) (f : SourceFile) : Value :=
  ((f.primaryElement (Name.scope name)).map Element.name).getD "Generated"

def target (c : Config) (name : String) (f : SourceFile) : Path :=
  (c.root.child (c.resolver.directory (Name.scope name))).child ((className name f).display ++ ".php")

def layouts (c : Config) (engine : Engine) (before : List (Tree × SourceFile)) (t : Tree) : Layouts :=
  match c.templatesDir with
  | none => {}
  | some dir => engine dir before t

def preview (c : Config) (layouts : Layouts) (name : String) (f : SourceFile) : Except Fault Preview := do
  let content ← Print.file layouts f
  return ⟨c.target name f, content, className name f, Name.scope name⟩

/-- Writes a file, making its directory where needed.  One whose text cannot be stored stays empty. -/
def store (t : Tree) (p : Preview) : Tree × Except Fault Unit :=
  match t.makeDirectories p.path.parent with
  | .error f => (t, .error f)
  | .ok t =>
    let stored := storable p.content
    match t.write p.path (if stored.toBool then Text.bytes p.content else .empty) with
    | .error f => (t, .error f)
    | .ok t => (t, stored)

/-- Prints artifacts one by one and writes each before the next is printed. -/
def writeAll (c : Config) (engine : Engine) (dryRun : Bool) :
    List Artifact → List (Tree × SourceFile) → Tree → Built Tree (List Path)
  | [], _, t => ⟨t, [], .ok []⟩
  | a :: r, before, t =>
    let looked := c.resolver.events (Name.scope a.name)
    match c.preview (c.layouts engine before t) a.name a.file with
    | .error f => ⟨t, looked, .error f⟩
    | .ok p =>
      let before := before ++ [(t, a.file)]
      if dryRun then
        let rest := c.writeAll engine dryRun r before t
        { rest with events := looked ++ .wouldWrite p.path.text :: rest.events }
      else
        match store t p with
        | (t, .error f) => ⟨t, looked, .error f⟩
        | (t, .ok ()) =>
          let rest := c.writeAll engine dryRun r before t
          { rest with
            events := looked ++ .generated p.path.text :: rest.events
            result := do return p.path :: (← rest.result) }

def generate (c : Config) (engine : Engine) (t : Tree) (p : Project) (dryRun : Bool) : Run (List Path) :=
  match c.validate with
  | .error f => ⟨t, p, [], .error f⟩
  | .ok () =>
    let built := p.build c.strictTypes
    let events := .building p.size :: built.events
    match built.result with
    | .error f => ⟨t, built.state, events, .error f⟩
    | .ok artifacts =>
      let written := c.writeAll engine dryRun artifacts [] t
      let closing := match written.result with
        | .ok _ => if dryRun then [.notWritten artifacts.length] else []
        | .error _ => []
      ⟨written.state, built.state, events ++ written.events ++ closing, written.result⟩

def previewAll (c : Config) (engine : Engine) (t : Tree) :
    List Artifact → List (Tree × SourceFile) → List Event × Except Fault (List Preview)
  | [], _ => ([], .ok [])
  | a :: r, before =>
    let looked := c.resolver.events (Name.scope a.name)
    match c.preview (c.layouts engine before t) a.name a.file with
    | .error f => (looked, .error f)
    | .ok p =>
      let (events, rest) := c.previewAll engine t r (before ++ [(t, a.file)])
      (looked ++ events, do return p :: (← rest))

def previews (c : Config) (engine : Engine) (t : Tree) (p : Project) : Run (List Preview) :=
  match c.validate with
  | .error f => ⟨t, p, [], .error f⟩
  | .ok () =>
    let built := p.build c.strictTypes
    match built.result with
    | .error f => ⟨t, built.state, built.events, .error f⟩
    | .ok artifacts =>
      let (events, shown) := c.previewAll engine t artifacts []
      ⟨t, built.state, built.events ++ events, shown⟩

end Config

end PhpScaffold
