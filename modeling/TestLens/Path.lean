namespace TestLens.Path

inductive Component where
  | root
  | current
  | parent
  | normal (name : String)
  deriving DecidableEq, Repr

def Component.ofPiece : List Char → Option Component
  | [] => none
  | ['.'] => none
  | ['.', '.'] => some .parent
  | name => some (.normal (String.ofList name))

def leading : List (List Char) → Option Component
  | [] :: _ :: _ => some .root
  | ['.'] :: _ => some .current
  | _ => none

-- Repeated and trailing slashes and inner dots mean nothing. A leading slash is a component, and so
-- is a dot that stands first; a double dot is kept.
def components (path : String) : List Component :=
  let ps := path.toList.splitOn '/'
  (leading ps).toList ++ ps.filterMap Component.ofPiece

def isAbsolute (path : String) : Bool :=
  path.toList.head? == some '/'

def join (dir file : String) : String :=
  if isAbsolute file || dir.toList.isEmpty then file
  else if dir.toList.getLast? == some '/' then dir ++ file
  else dir ++ "/" ++ file

-- The name that a component adds to a path inside a directory: a dot adds none, and a component
-- that leads out of the directory has none.
def Component.inside? : Component → Option (List String)
  | .normal name => some [name]
  | .current => some []
  | _ => none

def within? (dir file : String) : Option (List String) := do
  let rest ← (components dir).isPrefixOf? (components file)
  let names ← rest.mapM Component.inside?
  if names.flatten.isEmpty then none else some names.flatten

end TestLens.Path
