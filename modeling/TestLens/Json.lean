namespace TestLens

inductive Json where
  | null
  | bool (value : Bool)
  -- The number `mantissa / 10 ^ scale`. One with a fraction is told apart from an integer.
  | num (mantissa : Int) (scale : Nat)
  | str (text : String)
  | arr (items : List Json)
  | obj (members : List (String × Json))
  deriving Inhabited

namespace Json

def nat (n : Nat) : Json :=
  .num n 0

def word (n : UInt32) : Json :=
  nat n.toNat

def toNatBelow? (bound : Nat) : Json → Option Nat
  | .num (.ofNat n) 0 => if n < bound then some n else none
  | _ => none

def toWord? (j : Json) : Option UInt32 :=
  (j.toNatBelow? UInt32.size).map UInt32.ofNat

def toByte? (j : Json) : Option UInt8 :=
  (j.toNatBelow? UInt8.size).map UInt8.ofNat

def toText? : Json → Option String
  | .str s => some s
  | _ => none

@[simp] theorem toText?_str (s : String) : (str s).toText? = some s := rfl

@[simp] theorem toWord?_word (n : UInt32) : (word n).toWord? = some n := by
  have h : n.toNat < UInt32.size := n.toNat_lt
  have e : (word n).toNatBelow? UInt32.size = some n.toNat := if_pos h
  simp [toWord?, e]

@[simp] theorem toByte?_nat (n : UInt8) : (nat n.toNat).toByte? = some n := by
  have h : n.toNat < UInt8.size := n.toNat_lt
  have e : (nat n.toNat).toNatBelow? UInt8.size = some n.toNat := if_pos h
  simp [toByte?, e]

end Json

end TestLens
