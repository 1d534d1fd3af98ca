import TestLens.Tree

namespace TestLens

structure Row where
  depth : Nat
  kind : Kind
  start : Nat
  stop : Nat
  named : Bool
  extra : Bool
  field : Option Field
  deriving DecidableEq, Repr

namespace Row

def toNode (row : Row) (children : List Node) : Node where
  kind := row.kind
  start := row.start
  stop := row.stop
  named := row.named
  extra := row.extra
  field := row.field
  children := children

-- Puts a row in front of the trees that follow it. Those that lie deeper become its children.
def graft (row : Row) (trees : List (Nat × Node)) : List (Nat × Node) :=
  let deeper := fun (depth, _) => row.depth < depth
  (row.depth, row.toNode ((trees.takeWhile deeper).map Prod.snd)) :: trees.dropWhile deeper

end Row

namespace Node

def ofRows? (rows : List Row) : Option Node :=
  (rows.foldr Row.graft []).head?.map Prod.snd

end Node

namespace Row

-- The depth, the two offsets, the letters of the marks (`n` for named, `x` for extra), the field and
-- the kind. A dash stands for no marks and for no field.
def ofLine? (line : String) : Option Row :=
  match line.splitOn " " with
  | depth :: start :: stop :: marks :: field :: kind => do
    return {
      depth := ← depth.toNat?
      kind := .ofName (" ".intercalate kind)
      start := ← start.toNat?
      stop := ← stop.toNat?
      named := marks.contains 'n'
      extra := marks.contains 'x'
      field := Field.ofName? field }
  | _ => none

end Row

namespace Parse

def ofTable? (table : String) : Option Parse :=
  match table.splitOn "\n" with
  | [] => none
  | status :: lines => do
    let rows ← (lines.filter (· ≠ "")).mapM Row.ofLine?
    return ⟨← Node.ofRows? rows, status = "errors"⟩

end Parse

end TestLens
