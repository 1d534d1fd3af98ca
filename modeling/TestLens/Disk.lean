import TestLens.Failure

namespace TestLens

structure Disk where
  currentDir : Except Fault String
  -- The absolute path without links, dots and double dots that leads to the same place.
  canonicalize : String → Except Fault String
  isFile : String → Bool
  isDir : String → Bool
  read : String → Except Fault String

end TestLens
