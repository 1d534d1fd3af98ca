import TestLens.Tree

namespace TestLens

-- Where a node stands below another one: positions among siblings, innermost first.
abbrev Address : Type :=
  List Nat

structure Crumb where
  parent : Node
  index : Nat
  rest : List Node

structure Cursor where
  node : Node
  -- The levels above the node, innermost first.
  crumbs : List Crumb

namespace Cursor

def start (n : Node) : Cursor where
  node := n
  crumbs := []

def address (c : Cursor) : Address :=
  c.crumbs.map Crumb.index

def firstChild? (c : Cursor) : Option Cursor :=
  match c.node.children with
  | [] => none
  | n :: ns => some ⟨n, ⟨c.node, 0, ns⟩ :: c.crumbs⟩

def nextSibling? (c : Cursor) : Option Cursor :=
  match c.crumbs with
  | ⟨parent, index, n :: ns⟩ :: crumbs => some ⟨n, ⟨parent, index + 1, ns⟩ :: crumbs⟩
  | _ => none

def parent? (c : Cursor) : Option Cursor :=
  match c.crumbs with
  | [] => none
  | ⟨parent, _, _⟩ :: crumbs => some ⟨parent, crumbs⟩

end Cursor

namespace Node

-- An upper bound of the number of moves that it takes to go over the node.
def weight : Node → Nat
  | ⟨_, _, _, _, _, _, children⟩ => 3 + sum children
where
  sum : List Node → Nat
    | [] => 0
    | c :: cs => c.weight + sum cs

theorem weight_eq (n : Node) : n.weight = 3 + weight.sum n.children := by
  cases n; rfl

end Node

namespace Cursor

-- An upper bound of the number of moves that are left once the node itself is done.
def remaining (c : Cursor) : Nat :=
  go c.crumbs
where
  go : List Crumb → Nat
    | [] => 0
    | crumb :: crumbs => 1 + Node.weight.sum crumb.rest + go crumbs

theorem firstChild?_remaining {c child : Cursor} (h : c.firstChild? = some child) :
    child.node.weight + child.remaining + 2 = c.node.weight + c.remaining := by
  unfold firstChild? at h
  split at h
  case _ => contradiction
  case _ hc =>
    cases h
    simp only [c.node.weight_eq, hc, remaining, remaining.go, Node.weight.sum]
    omega

theorem nextSibling?_remaining {c next : Cursor} (h : c.nextSibling? = some next) :
    next.node.weight + next.remaining = c.remaining := by
  unfold nextSibling? at h
  split at h
  case _ hc =>
    cases h
    simp only [remaining, hc, remaining.go, Node.weight.sum]
    omega
  case _ => contradiction

theorem parent?_remaining {c parent : Cursor} (h : c.parent? = some parent) :
    parent.remaining < c.remaining := by
  unfold parent? at h
  split at h
  case _ => contradiction
  case _ hc =>
    cases h
    simp only [remaining, hc, remaining.go]
    omega

@[semireducible] def top (c : Cursor) : Cursor :=
  match _h : c.parent? with
  | some parent => parent.top
  | none => c
termination_by c.remaining
decreasing_by exact c.parent?_remaining _h

end Cursor

end TestLens
