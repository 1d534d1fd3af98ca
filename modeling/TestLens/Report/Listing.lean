import TestLens.Report

namespace TestLens

-- The first of every three elements; the last three may be incomplete.
def firstOfThree {α : Type} : List α → List α
  | [] => []
  | [a] => [a]
  | [a, _] => [a]
  | a :: _ :: _ :: rest => a :: firstOfThree rest

namespace Lens

def label (lens : Lens) : String :=
  match lens.data.id with
  | some id => "group " ++ id.display
  | none => "example"

-- There is no entry for a line that cannot be counted from one.
def entry? (path : String) (lens : Lens) : Option String := do
  let line ← succWord? lens.arguments.location.startLine
  let parent := match lens.data.group with
    | some group => "  (group " ++ group.display ++ ")"
    | none => ""
  return target path line ++ "  " ++ lens.label ++ "  " ++ lens.arguments.name ++ parent

end Lens

namespace FileReport

def entries? (file : FileReport) : Option (List String) :=
  (firstOfThree file.lenses).mapM (Lens.entry? file.path)

end FileReport

namespace LensReport

def totals (r : LensReport) : String :=
  toString r.lensCount ++ " lenses in " ++ toString r.files.length ++ " file(s)"

def listing (r : LensReport) : Except Failure String :=
  match r.files.mapM FileReport.entries? with
  | none => .error .exhausted
  | some entries => .ok ("\n".intercalate (entries.flatten ++ [r.totals]))

end LensReport

end TestLens
