import TestLens.Json

namespace TestLens

inductive Fault where
  | notFound
  | notDirectory
  | nameTooLong
  | tooManyLinks
  | nulByte
  | notText
  | other (message : String)
  deriving DecidableEq, Repr

namespace Fault

def message : Fault → String
  | .notFound => "No such file or directory (os error 2)"
  | .notDirectory => "Not a directory (os error 20)"
  | .nameTooLong => "File name too long (os error 36)"
  | .tooManyLinks => "Too many levels of symbolic links (os error 40)"
  | .nulByte => "file name contained an unexpected NUL byte"
  | .notText => "stream did not contain valid UTF-8"
  | .other message => message

end Fault

inductive Failure where
  | invalidArguments (message : String)
  | outsideWorkspace (file root : String)
  | fileNotFound (path : String)
  | parse (message : String)
  | io (fault : Fault)
  | internal (message : String)
  -- A counter of 32 bits cannot count any further.
  | exhausted
  deriving DecidableEq, Repr

namespace Failure

def noTree : Failure :=
  .parse "parser produced no syntax tree"

def message : Failure → String
  | .invalidArguments message => "invalid arguments: " ++ message
  | .outsideWorkspace file root => "file " ++ file ++ " is not under workspace root " ++ root
  | .fileNotFound path => "file not found: " ++ path
  | .parse message => "parse error: " ++ message
  | .io fault => "IO error: " ++ fault.message
  | .internal message => "internal error: " ++ message
  | .exhausted => "attempt to add with overflow"

-- The code of a failure, which is also the exit code of the program.
def code : Failure → UInt8
  | .invalidArguments _ => 2
  | .outsideWorkspace _ _ => 3
  | .fileNotFound _ => 3
  | .parse _ => 10
  | .io _ => 10
  | .internal _ => 10
  | .exhausted => 101

def details : Failure → Option Json
  | .outsideWorkspace file root => some (.obj [("file", .str file), ("workspace_root", .str root)])
  | .fileNotFound path => some (.obj [("path", .str path)])
  | _ => none

theorem code_ne_zero (f : Failure) : f.code ≠ 0 := by
  cases f <;> simp [code]

end Failure

end TestLens
