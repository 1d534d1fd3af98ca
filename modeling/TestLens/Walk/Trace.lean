import TestLens.Walk

namespace TestLens

inductive Step where
  | enter (call : Call)
  | leave (call : Call)
  deriving DecidableEq, Repr

namespace Visitor

-- Records every step. Methods of `stop` end the walk, and methods of `skip` have their inside left
-- out.
def recorder (skip stop : List String) : Visitor (Array Step) where
  enter trace call :=
    (trace.push (.enter call),
      if call.method ∈ stop then .stop else if call.method ∈ skip then .skip else .proceed)
  leave trace call := trace.push (.leave call)

end Visitor

namespace Document

def trace (d : Document) (skip stop : List String) (start : Node) : List Step × Ending :=
  let (steps, ending) := d.walkFrom (.recorder skip stop) start #[]
  (steps.toList, ending)

end Document

end TestLens
