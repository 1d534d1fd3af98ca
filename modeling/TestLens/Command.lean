namespace TestLens

inductive Origin where
  | override
  | runnerScript
  | bareRunner
  deriving DecidableEq, Repr

namespace Origin

def tag : Origin → String
  | .override => "override"
  | .runnerScript => "runner_script"
  | .bareRunner => "bare_runner"

def display : Origin → String
  | .override => "explicit override"
  | .runnerScript => "bin/rspec"
  | .bareRunner => "rspec on PATH"

end Origin

structure BaseCommand where
  command : String
  origin : Origin
  bundled : Bool
  deriving DecidableEq, Repr

namespace BaseCommand

def scriptPath : String := "bin/rspec"

def lockfilePath : String := "Gemfile.lock"

def probed (script lockfile : Bool) : BaseCommand where
  command := (if lockfile then "bundle exec " else "") ++ (if script then "bin/rspec" else "rspec")
  origin := if script then .runnerScript else .bareRunner
  bundled := lockfile

def overridden (command : String) : BaseCommand where
  command := command
  origin := .override
  bundled := false

def choose (override : Option String) (script lockfile : Bool) : BaseCommand :=
  match override with
  | some command => overridden command
  | none => probed script lockfile

end BaseCommand

def target (path : String) (line : UInt32) : String :=
  path ++ ":" ++ toString line.toNat

structure Commands where
  terminal : String
  runner : String
  deriving DecidableEq, Repr

namespace Commands

def runnerCommand : String := "bundle exec rspec"

def of (base : BaseCommand) (path : String) (line : UInt32) : Commands where
  terminal := base.command ++ " " ++ target path line
  runner := runnerCommand ++ " " ++ target path line

end Commands

end TestLens
