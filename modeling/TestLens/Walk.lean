import TestLens.Call.Reading
import TestLens.Tree.Cursor

universe u v

namespace TestLens

inductive Verdict where
  | proceed
  -- Leave out everything inside of the call.
  | skip
  | stop
  deriving DecidableEq, Repr

inductive Ending where
  | finished
  | stopped
  deriving DecidableEq, Repr

structure Visitor (σ : Type u) where
  enter : σ → Call → σ × Verdict
  leave : σ → Call → σ

namespace Walk

variable {ι : Type v} [DecidableEq ι] {σ : Type u}

structure Pending (ι : Type v) where
  key : ι
  call : Call

-- Leaves the call that was entered last, if it is the one of the node with the given key.
def close (visitor : Visitor σ) (key : ι) (pending : List (Pending ι)) (s : σ) :
    List (Pending ι) × σ :=
  match pending with
  | [] => ([], s)
  | p :: ps => if p.key = key then (ps, visitor.leave s p.call) else (p :: ps, s)

mutual

def arrive (key : Address → ι) (d : Document) (visitor : Visitor σ) (c : Cursor)
    (pending : List (Pending ι)) (s : σ) : σ × Ending :=
  match d.call? c.node with
  | none => inside key d visitor c pending s
  | some call =>
    let opened := ⟨key c.address, call⟩ :: pending
    match visitor.enter s call with
    | (s, .stop) => (s, .stopped)
    | (s, .skip) => finish key d visitor c opened s
    | (s, .proceed) => inside key d visitor c opened s
termination_by c.node.weight + c.remaining + 1
decreasing_by
  all_goals have := c.node.weight_eq; omega

def inside (key : Address → ι) (d : Document) (visitor : Visitor σ) (c : Cursor)
    (pending : List (Pending ι)) (s : σ) : σ × Ending :=
  match _h : c.firstChild? with
  | some child => arrive key d visitor child pending s
  | none => finish key d visitor c pending s
termination_by c.node.weight + c.remaining
decreasing_by
  · have := c.firstChild?_remaining _h; omega
  · have := c.node.weight_eq; omega

def finish (key : Address → ι) (d : Document) (visitor : Visitor σ) (c : Cursor)
    (pending : List (Pending ι)) (s : σ) : σ × Ending :=
  let (pending, s) := close visitor (key c.address) pending s
  match _h : c.nextSibling? with
  | some next => arrive key d visitor next pending s
  | none =>
    match _h : c.parent? with
    | some parent => finish key d visitor parent pending s
    | none => (s, .finished)
termination_by c.remaining + 2
decreasing_by
  · have := c.nextSibling?_remaining _h; omega
  · have := c.parent?_remaining _h; omega

end

end Walk

namespace Document

variable {ι : Type v} [DecidableEq ι] {σ : Type u}

-- The walk moves a cursor and keeps a list of the calls that it has not left yet, so its depth is
-- not bounded by the machine's stack. The key tells the nodes apart.
def walkBy (key : Address → ι) (d : Document) (visitor : Visitor σ) (start : Node) (s : σ) :
    σ × Ending :=
  Walk.arrive key d visitor (.start start) [] s

def walkFrom (d : Document) (visitor : Visitor σ) (start : Node) (s : σ) : σ × Ending :=
  d.walkBy id visitor start s

def walk (d : Document) (visitor : Visitor σ) (s : σ) : σ × Ending :=
  d.walkFrom visitor d.root s

end Document

end TestLens
