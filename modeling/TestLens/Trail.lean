import TestLens.Naming

namespace TestLens

structure Trail where
  -- The open groups, innermost first.
  groups : List GroupId
  -- The open calls, innermost first, with the group that each of them opened.
  frames : List (Option GroupId)
  nextId : GroupId
  unnamedCount : UInt32
  deriving DecidableEq, Repr

inductive Finding where
  | lens (name : String) (parent id : Option GroupId)
  -- A group keyword that opens no group of the framework.
  | skipped
  | nothing
  deriving DecidableEq, Repr

namespace Trail

def start : Trail where
  groups := []
  frames := []
  nextId := .first
  unnamedCount := 0

def current (t : Trail) : Option GroupId :=
  t.groups.head?

def stack (t : Trail) : List GroupId :=
  t.groups.reverse

def allocated (t : Trail) : UInt32 :=
  t.nextId.val - GroupId.first.val

def openPlain (t : Trail) : Trail :=
  { t with frames := none :: t.frames }

def openGroup? (t : Trail) : Option (Trail × GroupId) :=
  t.nextId.next?.map fun next =>
    ({ t with groups := t.nextId :: t.groups, frames := some t.nextId :: t.frames, nextId := next },
      t.nextId)

def leave (t : Trail) : Trail :=
  match t.frames with
  | [] => t
  | none :: frames => { t with frames }
  | some _ :: frames => { t with frames, groups := t.groups.tail }

theorem leave_frames (t : Trail) : t.leave.frames = t.frames.tail := by
  unfold leave
  split <;> simp_all

theorem leave_nextId (t : Trail) : t.leave.nextId = t.nextId := by
  unfold leave
  split <;> rfl

theorem leave_unnamedCount (t : Trail) : t.leave.unnamedCount = t.unnamedCount := by
  unfold leave
  split <;> rfl

def named? (t : Trail) (call : Call) : Option (Trail × String) :=
  (Naming.resolve t.unnamedCount call.argument).map fun (name, count) =>
    ({ t with unnamedCount := count }, name)

-- There is no result when a counter cannot count any further.
def enter (t : Trail) (call : Call) : Option (Trail × Finding) :=
  match call.role with
  | .single => do
    let (t, name) ← t.named? call
    return (t.openPlain, .lens name t.current none)
  | .group =>
    if call.opensGroup then do
      let (t, name) ← t.named? call
      let (opened, id) ← t.openGroup?
      return (opened, .lens name t.current (some id))
    else
      some (t.openPlain, .skipped)
  | .other => some (t.openPlain, .nothing)

end Trail

end TestLens
