namespace TestLens

def succWord? (n : UInt32) : Option UInt32 :=
  if n.toNat + 1 < UInt32.size then some (n + 1) else none

structure GroupId where
  val : UInt32
  deriving DecidableEq, Repr

namespace GroupId

def first : GroupId := ⟨1⟩

def next? (id : GroupId) : Option GroupId :=
  (succWord? id.val).map GroupId.mk

instance : LE GroupId := ⟨fun a b => a.val ≤ b.val⟩

instance : LT GroupId := ⟨fun a b => a.val < b.val⟩

instance (a b : GroupId) : Decidable (a ≤ b) :=
  inferInstanceAs (Decidable (a.val ≤ b.val))

instance (a b : GroupId) : Decidable (a < b) :=
  inferInstanceAs (Decidable (a.val < b.val))

def display (id : GroupId) : String :=
  toString id.val.toNat

end GroupId

end TestLens
