import TestLens.CommandLine
import TestLens.Json.Printer
import TestLens.Report.Listing
import TestLens.Workspace

namespace TestLens

structure Outcome where
  exit : UInt8
  stdout : String
  log : List Log.Event
  logJson : Bool

namespace Program

open CommandLine (Side Action)

def versionText : String := "speclens 0.1.0\n"

def usageCode : UInt8 := 2

-- The events that are written: those up to the level asked for, at least `debug` when calls are
-- to be explained. A filter of the environment replaces both.
def filter (environment : Option Log.Filter) (options : Side) : Log.Filter :=
  let level := options.logLevel.getD .warn
  environment.getD ⟨some (if options.debug then Log.Level.atLeast .debug level else level)⟩

def lensText (format : Format) (report : LensReport) : Except Failure String :=
  match format with
  | .json => .ok report.encode.pretty
  | .text => report.listing.map (· ++ "\n")

def baseText (format : Format) (base : BaseCommand) : String :=
  match format with
  | .json => base.report.pretty
  | .text => base.command ++ " (" ++ base.origin.display ++ ")\n"

def execute (disk : Disk) (parser : Parser) (options : Side) (action : Action) : Run String := do
  let root ← .ofExcept (Workspace.resolveRoot disk options.workspace)
  let format := options.format.getD .json
  match action with
  | .lens files =>
    let report ← Workspace.report disk parser root ⟨options.command, options.debug⟩ files
    .ofExcept (lensText format report)
  | .baseCommand =>
    let (base, found) := Workspace.baseCommand disk root options.command
    .note found
    return baseText format base

-- A failure is printed as JSON, whatever the format.
def run (disk : Disk) (parser : Parser) (environment : Option Log.Filter)
    (words : List String) : Outcome :=
  match CommandLine.read? words with
  | none => ⟨usageCode, "", [], false⟩
  | some .version => ⟨0, versionText, [], false⟩
  | some (.act options action) =>
    let done := execute disk parser options action
    let log := done.log.filter (filter environment options).passes
    match done.result with
    | .ok text => ⟨0, text, log, options.logJson⟩
    -- A counter that overflows ends the program on the spot.
    | .error .exhausted => ⟨Failure.exhausted.code, "", log, options.logJson⟩
    | .error f => ⟨f.code, (ErrorReport.ofFailure f).encode.pretty, log, options.logJson⟩

end Program

end TestLens
