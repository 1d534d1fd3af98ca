import TestLens.Program
import TestLens.Tree.Rows

namespace TestLens.Main

def logVariable : String := "RUST_LOG"

structure Sighting where
  canonical : String
  isFile : Bool
  isDir : Bool
  content : Except Fault String

def errorCode : IO.Error → Option (UInt32 × String)
  | .noFileOrDirectory _ code details => some (code, details)
  | .invalidArgument _ code details => some (code, details)
  | .inappropriateType _ code details => some (code, details)
  | .permissionDenied _ code details => some (code, details)
  | .resourceExhausted _ code details => some (code, details)
  | .noSuchThing _ code details => some (code, details)
  | .unsatisfiedConstraints code details => some (code, details)
  | .otherError code details => some (code, details)
  | _ => none

def faultOf (e : IO.Error) : Fault :=
  match errorCode e with
  | some (2, _) => .notFound
  | some (20, _) => .notDirectory
  | some (36, _) => .nameTooLong
  | some (40, _) => .tooManyLinks
  | some (code, details) => .other (details ++ " (os error " ++ toString code.toNat ++ ")")
  | none => .other (toString e)

def faultAt (path : String) : IO Fault := do
  try
    discard (IO.FS.Handle.mk path .read)
    return .notFound
  catch e =>
    return faultOf e

def readText (path : String) : IO (Except Fault String) := do
  try
    match String.fromUTF8? (← IO.FS.readBinFile path) with
    | some text => return .ok text
    | none => return .error .notText
  catch e =>
    return .error (faultOf e)

def sight (path : String) : IO (Except Fault Sighting) := do
  if path.toList.contains '\x00' then
    return .error .nulByte
  if path.isEmpty then
    return .error .notFound
  try
    let place ← IO.FS.realPath path
    let type := (← place.metadata).type
    let content ← readText place.toString
    return .ok ⟨place.toString, type == .file, type == .dir, content⟩
  catch _ =>
    return .error (← faultAt path)

-- Everything that a run can ask the file system is looked up before it starts. The tree of a file
-- is read from a table of rows beside it, under its name with `.tree` at the end.
structure Snapshot where
  currentDir : Except Fault String
  sightings : List (String × Except Fault Sighting)
  parses : List (String × Parse)

namespace Snapshot

def find (s : Snapshot) (path : String) : Except Fault Sighting :=
  (s.sightings.lookup path).getD (.error .notFound)

def disk (s : Snapshot) : Disk where
  currentDir := s.currentDir
  canonicalize path := (s.find path).map Sighting.canonical
  isFile path := ((s.find path).map Sighting.isFile).toOption.getD false
  isDir path := ((s.find path).map Sighting.isDir).toOption.getD false
  read path := (s.find path).bind Sighting.content

def parser (s : Snapshot) : Parser :=
  fun source => s.parses.lookup source

def look (s : Snapshot) (path : String) : IO Snapshot := do
  let found ← sight path
  let names := path :: (found.map Sighting.canonical).toOption.toList
  return { s with sightings := names.map (·, found) ++ s.sightings }

def lookAtFile (s : Snapshot) (path : String) : IO Snapshot := do
  let s ← s.look path
  match s.find path with
  | .error _ => return s
  | .ok sighting =>
    let table ← readText (sighting.canonical ++ ".tree")
    match sighting.content, table.toOption.bind Parse.ofTable? with
    | .ok source, some parse => return { s with parses := (source, parse) :: s.parses }
    | _, _ => return s

def take (options : CommandLine.Side) (action : CommandLine.Action) : IO Snapshot := do
  let currentDir ← try
      let place ← IO.currentDir
      pure (.ok place.toString)
    catch e => pure (.error (faultOf e))
  let start : Snapshot := ⟨currentDir, [], []⟩
  match options.workspace.or currentDir.toOption with
  | none => return start
  | some given =>
    let s ← start.look given
    match s.find given with
    | .error _ => return s
    | .ok sighting =>
      let root := sighting.canonical
      let s ← s.look (Path.join root BaseCommand.scriptPath)
      let s ← s.look (Path.join root BaseCommand.lockfilePath)
      match action with
      | .baseCommand => return s
      | .lens files => files.foldlM (fun s file => s.lookAtFile (Path.join root file)) s

end Snapshot

def snapshotFor (words : List String) : IO Snapshot :=
  match CommandLine.read? words with
  | some (.act options action) => Snapshot.take options action
  | _ => return ⟨.error .notFound, [], []⟩

end TestLens.Main

open TestLens in
def main (words : List String) : IO UInt32 := do
  let snapshot ← Main.snapshotFor words
  let environment := (← IO.getEnv Main.logVariable).bind Log.Filter.ofWord?
  let outcome := Program.run snapshot.disk snapshot.parser environment words
  for event in outcome.log do
    IO.eprintln (if outcome.logJson then event.json.inline else event.line)
  IO.print outcome.stdout
  return outcome.exit.toUInt32
