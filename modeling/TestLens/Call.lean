import TestLens.Place

namespace TestLens

inductive Role where
  | single
  | group
  | other
  deriving DecidableEq, Repr

namespace Role

def exampleWords : List String :=
  ["example", "it", "specify"]

def groupWords : List String :=
  ["context", "describe"]

def ofMethod (method : String) : Role :=
  if method ∈ exampleWords then .single
  else if method ∈ groupWords then .group
  else .other

end Role

inductive Argument where
  -- A string without interpolation: the text between its delimiters, as written.
  | string (content : String)
  | call (callee : String)
  | other (text : String)
  deriving DecidableEq, Repr

structure Call where
  method : String
  role : Role
  receiver : Option String
  argument : Option Argument
  -- The number of arguments, where a block handed over as an argument does not count.
  argumentCount : Nat
  block : Bool
  extent : Extent
  deriving DecidableEq, Repr

namespace Call

def framework : String := "RSpec"

-- Others are not evaluated by the test framework.
def opensGroup (call : Call) : Bool :=
  call.role = .group && call.block && (call.receiver = none || call.receiver = some framework)

def emits (call : Call) : Bool :=
  call.role = .single || call.opensGroup

def line (call : Call) : UInt32 :=
  call.extent.startLine

end Call

end TestLens
