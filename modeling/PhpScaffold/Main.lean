import PhpScaffold.CommandLine

/-! The program.  It takes in the files below the directory it runs in and below that of the settings, lets
`CommandLine.run` decide, and writes out what has changed. -/

namespace PhpScaffold.Main

partial def take (t : Tree) (place : List String) : IO Tree := do
  let here ← IO.currentDir
  let mut t := t
  for e in ← (here / ("/" ++ "/".intercalate place)).readDir do
    let there := place ++ [e.fileName]
    if ← e.path.isDir then t ← take (t.put there .directory) there
    else t := t.put there (.file (← IO.FS.readBinFile e.path))
  return t

def takePlace (t : Tree) (p : Path) : IO Tree := do
  let here ← IO.currentDir
  let p := if ← (here / p.text).isDir then p else p.parent
  if ← (here / p.text).isDir then take ((t.makeDirectories p).toOption.getD t) p.parts else return t

def release (before after : Tree) : IO Unit := do
  for (place, entry) in after.entries do
    let path := "/" ++ "/".intercalate place
    match entry, before.get? place with
    | .directory, some .directory => pure ()
    | .directory, _ => IO.FS.createDirAll path
    | .file bytes, some (.file old) => if !(bytes == old) then IO.FS.writeBinFile path bytes
    | .file bytes, _ => IO.FS.writeBinFile path bytes

end PhpScaffold.Main

def main (words : List String) : IO UInt32 := do
  let cwd := PhpScaffold.Path.ofText (← IO.currentDir).toString
  let place := match PhpScaffold.CommandLine.configGrammar.read words with
    | .ok r => (PhpScaffold.CommandLine.configPlace cwd r).resolve
    | .error _ => cwd
  let before ← PhpScaffold.Main.takePlace (← PhpScaffold.Main.takePlace {} cwd) place
  match PhpScaffold.CommandLine.run before cwd {} words with
  | .error f =>
    IO.eprintln (f.category.label ++ ": " ++ f.text)
    return 1
  | .ok o =>
    PhpScaffold.Main.release before o.tree
    IO.print o.stdout
    IO.eprint o.stderr
    match o.served with
    | none => return o.code.toUInt32
    | some (host, port) =>
      IO.eprintln ("no server is built in for " ++ host.display ++ ":" ++ port.display)
      return 1
