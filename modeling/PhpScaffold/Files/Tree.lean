import PhpScaffold.Fault
import PhpScaffold.Files.Path
import PhpScaffold.Files.Utf8

namespace PhpScaffold

inductive Entry
  | directory
  | file (bytes : ByteArray)

structure Tree where
  entries : List (List String × Entry) := []

namespace Tree

def get? (t : Tree) (place : List String) : Option Entry :=
  if place.isEmpty then some .directory else t.entries.lookup place

def putEntry (place : List String) (e : Entry) : List (List String × Entry) → List (List String × Entry)
  | [] => [(place, e)]
  | (p, f) :: r => if p = place then (place, e) :: r else (p, f) :: putEntry place e r

def put (t : Tree) (place : List String) (e : Entry) : Tree := ⟨putEntry place e t.entries⟩

def longest : Nat := 255

def enter (t : Tree) (place : List String) (name : String) : Except SystemFault (List String) :=
  match t.get? place with
  | none => throw .missing
  | some (.file _) => throw .notDirectory
  | some .directory => if longest < Text.nameSize name then throw .nameTooLong else return Path.push place name

def longestPath : Nat := 4095

/-- Where a path leads.  All but the last name must be there. -/
def locate (t : Tree) (p : Path) : Except SystemFault (List String) :=
  if (Text.firstUnnameable? p.text).isSome then throw .unpaired
  else if p.hasNull then throw .nullByte
  else if longestPath < Text.nameSize p.text then throw .nameTooLong
  else p.parts.foldlM t.enter []

def at? (t : Tree) (p : Path) : Option Entry :=
  match t.locate p with
  | .ok place => t.get? place
  | .error _ => none

def isDirectory (t : Tree) (p : Path) : Bool :=
  match t.at? p with
  | some .directory => true
  | _ => false

def isFile (t : Tree) (p : Path) : Bool :=
  match t.at? p with
  | some (.file _) => true
  | _ => false

def look (t : Tree) (p : Path) : Except Fault (Option Entry) :=
  match t.locate p with
  | .ok place => return t.get? place
  | .error .nameTooLong => throw (.system .nameTooLong p.text)
  | .error _ => return none

def exists? (t : Tree) (p : Path) : Except Fault Bool := do return (← t.look p).isSome

def read (t : Tree) (p : Path) : Except Fault ByteArray :=
  match t.locate p with
  | .error f => throw (.system f p.text)
  | .ok place =>
    match t.get? place with
    | some (.file bytes) => return bytes
    | some .directory => throw (.system .isDirectory p.text)
    | none => throw (.system .missing p.text)

def decode (bytes : ByteArray) : Except Fault String :=
  match Text.ofBytes? bytes with
  | some s => return s
  | none =>
    match Utf8.fault? 0 0 bytes.toList with
    | none => throw (.undecodable "")
    | some (start, length, defect) =>
      let what := if length = 1 then
          "byte 0x" ++ .ofList (Text.hex 2 ((bytes.toList[start]?).getD 0).toNat) ++ " in position " ++
            toString start
        else "bytes in position " ++ toString start ++ "-" ++ toString (start + length - 1)
      throw (.undecodable ("'utf-8' codec can't decode " ++ what ++ ": " ++ defect.message))

def readText (t : Tree) (p : Path) : Except Fault String := do decode (← t.read p)

def makeDirectory (t : Tree) (p : Path) : Except SystemFault Tree := do
  let place ← t.locate p
  if (t.get? place).isSome then throw .exists
  return t.put place .directory

def ensureDirectory (t : Tree) (p : Path) : Except Fault Tree :=
  match t.makeDirectory p with
  | .ok t => return t
  | .error f => if t.isDirectory p then return t else throw (.system f p.text)

def makeAll (lead : Lead) (t : Tree) : List String → Except Fault Tree
  | [] => t.ensureDirectory ⟨lead, []⟩
  | part :: rest =>
    let p : Path := ⟨lead, (part :: rest).reverse⟩
    match t.makeDirectory p with
    | .error .missing => do (← makeAll lead t rest).ensureDirectory p
    | _ => t.ensureDirectory p

def makeDirectories (t : Tree) (p : Path) : Except Fault Tree := makeAll p.lead t p.parts.reverse

def write (t : Tree) (p : Path) (bytes : ByteArray) : Except Fault Tree :=
  match t.locate p with
  | .error f => throw (.system f p.text)
  | .ok place =>
    match t.get? place with
    | some .directory => throw (.system .isDirectory p.text)
    | _ => return t.put place (.file bytes)

def filesBelow (t : Tree) (place : List String) : List (List String × ByteArray) :=
  t.entries.filterMap fun (p, e) =>
    match e with
    | .file bytes => if place.isPrefixOf p then some (p.drop place.length, bytes) else none
    | .directory => none

end Tree

end PhpScaffold
