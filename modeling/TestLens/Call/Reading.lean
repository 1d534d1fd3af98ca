import TestLens.Call
import TestLens.Text.Blank
import TestLens.Text.Offset
import TestLens.Tree.Heredoc

namespace TestLens.Document

def textOf (d : Document) (n : Node) : String :=
  String.ofList ((Text.slice? d.text.toList n.start n.stop).getD [])

def isContent (n : Node) : Bool :=
  n.kind = .stringContent || n.kind = .heredocContent || n.kind = .escapeSequence

def literal? (d : Document) (n : Node) : Option (List Char) :=
  if n.namedChildren.any fun c => c.kind = .interpolation then none
  else match n.namedChildren.filter isContent with
    | [] => some []
    | first :: rest =>
      Text.slice? d.text.toList first.start ((first :: rest).getLast (by simp)).stop

def argument (d : Document) (n : Node) : Argument :=
  match n.kind with
  | .string =>
    match d.literal? n with
    | some content => .string (String.ofList content)
    | none => .other (d.textOf n)
  | .heredocBeginning =>
    match (d.root.heredocBody? n).bind d.literal? with
    | some content => .string (String.ofList (Text.trim content))
    | none => .other (d.textOf n)
  | .call =>
    match n.child? .method with
    | some method => .call (d.textOf method)
    | none => .other (d.textOf n)
  | .identifier => .call (d.textOf n)
  | .constant => .call (d.textOf n)
  | _ => .other (d.textOf n)

-- The nodes in an argument list that hand something over: arguments, and blocks given as one.
def handedOver (n : Node) : List Node :=
  match n.child? .arguments with
  | some list => list.namedChildren.filter fun c => !c.extra
  | none => []

def isBlockArgument (n : Node) : Bool :=
  n.kind = .blockArgument

-- Lines are counted from one, columns in bytes. A text of less than four gigabytes has no place at
-- which these words wrap.
def extent (d : Document) (n : Node) : Extent :=
  let start := Text.locate d.text.toList n.start
  let stop := Text.locate d.text.toList n.stop
  ⟨.ofNat (start.1 + 1), .ofNat start.2, .ofNat (stop.1 + 1), .ofNat stop.2⟩

def callOf (d : Document) (n : Node) (method : String) : Call :=
  let arguments := (handedOver n).filter fun c => !isBlockArgument c
  { method
    role := .ofMethod method
    receiver := (n.child? .receiver).map d.textOf
    argument := arguments.head?.map d.argument
    argumentCount := arguments.length
    block := (n.child? .block).isSome || (handedOver n).any isBlockArgument
    extent := d.extent n }

-- Calls without a method name are none.
def call? (d : Document) (n : Node) : Option Call :=
  if n.kind = .call then ((n.child? .method).map d.textOf).map (d.callOf n) else none

variable {d : Document} {n : Node} {call : Call}

theorem exists_callOf (h : d.call? n = some call) : ∃ method, call = d.callOf n method := by
  rw [call?, Option.ite_none_right_eq_some, Option.map_eq_some_iff] at h
  obtain ⟨_, method, _, rfl⟩ := h
  exact ⟨method, rfl⟩

theorem extent_of_call? (h : d.call? n = some call) : call.extent = d.extent n := by
  obtain ⟨_, rfl⟩ := exists_callOf h
  rfl

theorem role_of_call? (h : d.call? n = some call) : call.role = .ofMethod call.method := by
  obtain ⟨_, rfl⟩ := exists_callOf h
  rfl

end TestLens.Document
