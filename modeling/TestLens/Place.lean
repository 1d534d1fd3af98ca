namespace TestLens

-- An extent counts lines from one, a location from zero. Columns are bytes in both.
structure Extent where
  startLine : UInt32
  startColumn : UInt32
  endLine : UInt32
  endColumn : UInt32
  deriving DecidableEq, Repr

structure Location where
  startLine : UInt32
  startColumn : UInt32
  endLine : UInt32
  endColumn : UInt32
  deriving DecidableEq, Repr

structure Position where
  line : UInt32
  character : UInt32
  deriving DecidableEq, Repr

structure Range where
  start : Position
  stop : Position
  deriving DecidableEq, Repr

def lineAbove (n : UInt32) : UInt32 :=
  if n = 0 then 0 else n - 1

namespace Extent

def location (e : Extent) : Location where
  startLine := lineAbove e.startLine
  startColumn := e.startColumn
  endLine := lineAbove e.endLine
  endColumn := e.endColumn

end Extent

namespace Location

def range (l : Location) : Range where
  start := ⟨l.startLine, l.startColumn⟩
  stop := ⟨l.endLine, l.endColumn⟩

end Location

end TestLens
