import TestLens.Collector
import TestLens.Disk
import TestLens.Path
import TestLens.Report
import TestLens.Run

namespace TestLens

def Parser : Type :=
  String → Option Parse

structure Options where
  command : Option String
  debug : Bool
  deriving DecidableEq, Repr

namespace Workspace

def relative (root file : String) : Except Failure String :=
  match Path.within? root file with
  | some names => .ok ("/".intercalate names)
  | none => .error (.outsideWorkspace file root)

def baseCommand (disk : Disk) (root : String) (override : Option String) :
    BaseCommand × List Log.Event :=
  if override.isSome then (.choose override false false, [])
  else
    let base := .choose none (disk.isFile (Path.join root BaseCommand.scriptPath))
      (disk.isFile (Path.join root BaseCommand.lockfilePath))
    (base, [.resolvedBase base])

-- The lenses come out also when the run fails; they are those of `sink` then.
def collectInto (disk : Disk) (parser : Parser) (root file : String) (options : Options)
    (source : String) (sink : Array Lens) : Array Lens × Run Unit :=
  match relative root file with
  | .error f => (sink, .fail f)
  | .ok path =>
    let (base, found) := baseCommand disk root options.command
    match parser source with
    | none => (sink, ⟨found, .error .noTree⟩)
    | some parse =>
      let warning := if parse.hasErrors then [.syntaxErrors path] else []
      let document : Document := { parse with text := source }
      match document.collect ⟨path, base, options.debug⟩ sink with
      | none => (sink, ⟨found ++ warning, .error .exhausted⟩)
      | some c => (c.lenses, ⟨found ++ warning ++ c.log.toList, .ok ()⟩)

def collect (disk : Disk) (parser : Parser) (root file : String) (options : Options)
    (source : String) : Run (List Lens) :=
  let (lenses, run) := collectInto disk parser root file options source #[]
  do run; return lenses.toList

def resolveRoot (disk : Disk) (given : Option String) : Except Failure String := do
  let root ← match given with
    | some path => pure path
    | none => disk.currentDir.mapError .io
  match disk.canonicalize root with
  | .error .notFound => throw (.invalidArguments ("workspace does not exist: " ++ root))
  | .error fault => throw (.io fault)
  | .ok canonical =>
    if disk.isDir canonical then return canonical
    else throw (.invalidArguments ("workspace is not a directory: " ++ canonical))

def resolveFile (disk : Disk) (root file : String) : Except Failure String :=
  match disk.canonicalize (Path.join root file) with
  | .error .notFound => .error (.fileNotFound file)
  | .error fault => .error (.io fault)
  | .ok canonical =>
    if disk.isFile canonical then .ok canonical
    else .error (.invalidArguments ("not a regular file: " ++ file))

def reportFile (disk : Disk) (parser : Parser) (root : String) (options : Options)
    (file : String) : Run FileReport := do
  let canonical ← .ofExcept (resolveFile disk root file)
  let source ← .ofExcept ((disk.read canonical).mapError .io)
  let lenses ← collect disk parser root canonical options source
  let path ← .ofExcept (relative root canonical)
  .note [.collected path lenses.length]
  return ⟨path, lenses⟩

-- The first file that fails ends the run.
def report (disk : Disk) (parser : Parser) (root : String) (options : Options)
    (files : List String) : Run LensReport :=
  if files.isEmpty then .fail (.invalidArguments "no files given")
  else do return .ok (← files.mapM (reportFile disk parser root options))

end Workspace

end TestLens
