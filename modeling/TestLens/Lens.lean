import TestLens.Command
import TestLens.GroupId
import TestLens.Place

namespace TestLens

inductive LensKind where
  | test
  | testInTerminal
  | debug
  deriving DecidableEq, Repr

namespace LensKind

-- The kinds in the order in which they are shown.
def all : List LensKind :=
  [.test, .testInTerminal, .debug]

def tag : LensKind → String
  | .test => "test"
  | .testInTerminal => "test_in_terminal"
  | .debug => "debug"

def ofTag? (s : String) : Option LensKind :=
  all.find? fun kind => kind.tag = s

@[simp] theorem ofTag?_tag (kind : LensKind) : ofTag? kind.tag = some kind := by
  cases kind <;> decide

def title : LensKind → String
  | .test => "Run"
  | .testInTerminal => "Run In Terminal"
  | .debug => "Debug"

def action : LensKind → String
  | .test => "rubyLsp.runTest"
  | .testInTerminal => "rubyLsp.runTestInTerminal"
  | .debug => "rubyLsp.debugTest"

def commandText (commands : Commands) : LensKind → String
  | .test => commands.runner
  | .testInTerminal => commands.terminal
  | .debug => commands.runner

end LensKind

structure LensArguments where
  path : String
  name : String
  command : String
  location : Location
  deriving DecidableEq, Repr

-- Which call a lens stands for: the group around it, and its own identifier if it is a group.
structure LensData where
  kind : LensKind
  group : Option GroupId
  id : Option GroupId
  deriving DecidableEq, Repr

structure Lens where
  title : String
  action : String
  arguments : LensArguments
  data : LensData
  range : Range
  deriving DecidableEq, Repr

namespace Lens

def of (path name : String) (commands : Commands) (location : Location)
    (group id : Option GroupId) (kind : LensKind) : Lens where
  title := kind.title
  action := kind.action
  arguments := ⟨path, name, kind.commandText commands, location⟩
  data := ⟨kind, group, id⟩
  range := location.range

def triple (path name : String) (commands : Commands) (location : Location)
    (group id : Option GroupId) : List Lens :=
  LensKind.all.map (of path name commands location group id)

def isGroup (lens : Lens) : Bool :=
  lens.data.id.isSome

end Lens

end TestLens
