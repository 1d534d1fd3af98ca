import TestLens.Call
import TestLens.GroupId

namespace TestLens

namespace Argument

def name : Argument → String
  | .string content => content
  | .call callee => "<" ++ callee ++ ">"
  | .other text => text

end Argument

namespace Naming

def unnamed (n : UInt32) : String :=
  "<unnamed-" ++ toString n.toNat ++ ">"

-- There is no name when the counter cannot count any further.
def resolve (count : UInt32) : Option Argument → Option (String × UInt32)
  | some argument => some (argument.name, count)
  | none => (succWord? count).map fun n => (unnamed n, n)

@[simp] theorem resolve_some (count : UInt32) (argument : Argument) :
    resolve count (some argument) = some (argument.name, count) := rfl

-- A counter that cannot count any further stays as it is.
def resolveAll (count : UInt32) : List (Option Argument) → List (Option String × UInt32)
  | [] => []
  | argument :: arguments =>
    match resolve count argument with
    | some (name, count) => (some name, count) :: resolveAll count arguments
    | none => (none, count) :: resolveAll count arguments

end Naming

end TestLens
