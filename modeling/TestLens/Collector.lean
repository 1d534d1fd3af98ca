import TestLens.Lens
import TestLens.Log
import TestLens.Trail
import TestLens.Walk.Trace

namespace TestLens

structure Subject where
  path : String
  base : BaseCommand
  debug : Bool
  deriving DecidableEq, Repr

inductive Output where
  | event (event : Log.Event)
  | lens (lens : Lens)
  deriving DecidableEq, Repr

namespace Subject

def commands (s : Subject) (call : Call) : Commands :=
  .of s.base s.path call.line

def lenses (s : Subject) (call : Call) : Finding → List Lens
  | .lens name parent id =>
    Lens.triple s.path name (s.commands call) call.extent.location parent id
  | .skipped => []
  | .nothing => []

def events (s : Subject) (call : Call) (finding : Finding) : List Log.Event :=
  if s.debug then
    match finding with
    | .lens name _ _ => [.emitted call.method name s.path call.line (s.commands call).runner]
    | .skipped => [.skipped call.method s.path call.line call.receiver call.block]
    | .nothing => []
  else []

-- Everything that is written for a finding, in the order in which it is written.
def outputs (s : Subject) (call : Call) (finding : Finding) : List Output :=
  (s.events call finding).map .event ++ (s.lenses call finding).map .lens

end Subject

structure Collector where
  subject : Subject
  trail : Trail
  lenses : Array Lens
  log : Array Log.Event
  deriving DecidableEq, Repr

namespace Collector

def start (subject : Subject) (sink : Array Lens) : Collector where
  subject := subject
  trail := .start
  lenses := sink
  log := #[]

def write (c : Collector) : Output → Collector
  | .event event => { c with log := c.log.push event }
  | .lens lens => { c with lenses := c.lenses.push lens }

def enter (c : Collector) (call : Call) : Option Collector :=
  (c.trail.enter call).map fun (trail, finding) =>
    (c.subject.outputs call finding).foldl write { c with trail }

def leave (c : Collector) : Collector :=
  { c with trail := c.trail.leave }

def step (c : Collector) : Step → Option Collector
  | .enter call => c.enter call
  | .leave _ => some c.leave

def steps (c : Collector) (steps : List Step) : Option Collector :=
  steps.foldlM step c

end Collector

namespace Visitor

-- The walk goes everywhere, unless a counter cannot count any further.
def collector : Visitor (Option Collector) where
  enter
    | none, _ => (none, .stop)
    | some c, call =>
      match c.enter call with
      | some c => (some c, .proceed)
      | none => (none, .stop)
  leave c _ := c.map Collector.leave

end Visitor

namespace Document

def collect (d : Document) (subject : Subject) (sink : Array Lens) : Option Collector :=
  (d.walk .collector (some (.start subject sink))).1

end Document

end TestLens
