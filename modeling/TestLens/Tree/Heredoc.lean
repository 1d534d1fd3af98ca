import TestLens.Tree.Cursor

namespace TestLens

namespace Cursor

mutual

-- Comes to a node for the first time. A node that ends at the offset or before it is passed over
-- with everything below it, and nothing is looked for inside of a body.
@[semireducible] def seekBody? (offset : Nat) (c : Cursor) : Option Node :=
  if c.node.kind = .heredocBody then
    if offset ≤ c.node.start then some c.node else passBody? offset c
  else if offset < c.node.stop then
    match _h : c.firstChild? with
    | some child => seekBody? offset child
    | none => passBody? offset c
  else passBody? offset c
termination_by c.node.weight + c.remaining
decreasing_by
  · have := c.node.weight_eq; omega
  · have := c.firstChild?_remaining _h; omega
  all_goals have := c.node.weight_eq; omega

@[semireducible] def passBody? (offset : Nat) (c : Cursor) : Option Node :=
  match _h : c.nextSibling? with
  | some next => seekBody? offset next
  | none =>
    match _h : c.parent? with
    | some parent => passBody? offset parent
    | none => none
termination_by c.remaining + 1
decreasing_by
  · have := c.nextSibling?_remaining _h; omega
  · have := c.parent?_remaining _h; omega

end

end Cursor

namespace Node

-- A body hangs below whatever node is open where the opener's line ends, often outside of the call
-- that the opener belongs to. So it is looked for in the whole tree.
def heredocBody? (root opener : Node) : Option Node :=
  (Cursor.start root).seekBody? opener.stop

end Node

def Cursor.heredocBody? (c : Cursor) : Option Node :=
  c.top.node.heredocBody? c.node

end TestLens
