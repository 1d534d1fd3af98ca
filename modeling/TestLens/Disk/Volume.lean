import TestLens.Disk
import TestLens.Path

namespace TestLens

inductive Item where
  | file (content : ByteArray)
  | directory
  | link (target : String)

structure Volume where
  -- What is found under a list of names. The root itself is always a directory.
  items : List (List String × Item)
  currentDir : List String
  -- How many of these names, counted from the last, belong to directories that were removed.
  removed : Nat

namespace Volume

def empty : Volume where
  items := []
  currentDir := []
  removed := 0

def maxLinks : Nat := 40

def maxName : Nat := 255

def maxPath : Nat := 4095

inductive Lookup where
  | existing
  -- The last of them may be missing.
  | creating
  -- All of them have to be there, and each place on the way is asked for by its own absolute path.
  | stepwise
  deriving DecidableEq

def get? (v : Volume) : List String → Option Item
  | [] => some .directory
  | names => v.items.lookup names

def isPassable (v : Volume) (place : List String) : Bool :=
  match v.get? place with
  | some .directory => true
  | _ => false

def words (path : String) : List String :=
  (path.toList.splitOn '/').map String.ofList

def origin (place : List String) (path : String) : List String :=
  if Path.isAbsolute path then [] else place

def pathOf (place : List String) : String :=
  "/" ++ "/".intercalate place

def isDots (word : String) : Bool :=
  word = "" || word = "." || word = ".."

-- A link is replaced by its target before the rest of the words is looked at.
def follow (v : Volume) (lookup : Lookup) (links : Nat) (place : List String) :
    List String → Except Fault (List String)
  | [] => .ok place
  | word :: rest =>
    if lookup = .stepwise ∧ !isDots word ∧ maxPath < (pathOf (place ++ [word])).utf8ByteSize then
      .error .nameTooLong
    else if !v.isPassable place then .error .notDirectory
    else if word = "" ∨ word = "." then v.follow lookup links place rest
    else if word = ".." then v.follow lookup links place.dropLast rest
    else if maxName < word.utf8ByteSize then .error .nameTooLong
    else match v.get? (place ++ [word]) with
      | none =>
        if lookup = .creating ∧ rest.isEmpty then .ok (place ++ [word]) else .error .notFound
      | some (.link target) =>
        match links with
        | 0 => .error .tooManyLinks
        | links + 1 => v.follow lookup links (origin place target) (words target ++ rest)
      | some _ => v.follow lookup links (place ++ [word]) rest
termination_by rest => (links, rest.length)

-- The place and the words that are left after `removed` directories that are gone. Nothing is found
-- in such a directory but the one above it.
def climb (place : List String) : Nat → List String → Except Fault (List String × List String)
  | 0, words => .ok (place, words)
  | _ + 1, [] => .error .notFound
  | removed + 1, word :: rest =>
    if word = "" ∨ word = "." then climb place (removed + 1) rest
    else if word = ".." then climb place.dropLast removed rest
    else .error .notFound

-- A path that is looked up in one go must not be too long. One that is looked up step by step needs
-- a current directory with a path of its own.
def resolve (v : Volume) (lookup : Lookup) (path : String) : Except Fault (List String) :=
  if path.toList.contains '\x00' then .error .nulByte
  else if path.toList.isEmpty then .error .notFound
  else if lookup ≠ .stepwise ∧ maxPath < path.utf8ByteSize then .error .nameTooLong
  else if Path.isAbsolute path then v.follow lookup maxLinks [] (words path)
  else if lookup = .stepwise ∧ v.removed ≠ 0 then .error .notFound
  else do
    let (place, rest) ← climb v.currentDir v.removed (words path)
    v.follow lookup maxLinks place rest

def find (v : Volume) (path : String) : Except Fault Item := do
  match v.get? (← v.resolve .existing path) with
  | some item => return item
  | none => throw .notFound

def read (v : Volume) (path : String) : Except Fault String := do
  match ← v.find path with
  | .file content =>
    match String.fromUTF8? content with
    | some text => return text
    | none => throw .notText
  | _ => throw (.other "Is a directory (os error 21)")

def disk (v : Volume) : Disk where
  currentDir := if v.removed = 0 then .ok (pathOf v.currentDir) else .error .notFound
  canonicalize path := (v.resolve .stepwise path).map pathOf
  isFile path :=
    match v.find path with
    | .ok (.file _) => true
    | _ => false
  isDir path :=
    match v.find path with
    | .ok .directory => true
    | _ => false
  read := v.read

def insert (v : Volume) (place : List String) (item : Item) : Volume :=
  { v with items := (place, item) :: v.items.filter fun (other, _) => other ≠ place }

def descend (v : Volume) (place : List String) (name : String) : Volume × List String :=
  match v.get? (place ++ [name]) with
  | none => (v.insert (place ++ [name]) .directory, place ++ [name])
  | some _ =>
    match v.follow .existing maxLinks place [name] with
    | .ok target => (v, target)
    | .error _ => (v, place ++ [name])

def makeDirs (v : Volume) (names : List String) : Volume × List String :=
  names.foldl (fun (v, place) name => v.descend place name) (v, [])

-- The content of a file goes to where a link of its name leads, also if nothing is there yet.
def place (v : Volume) (names : List String) (item : Item) : Volume :=
  match names.getLast?, item with
  | none, _ => v
  | some _, .directory => (v.makeDirs names).1
  | some name, .link _ =>
    let (v, dir) := v.makeDirs names.dropLast
    v.insert (dir ++ [name]) item
  | some name, .file _ =>
    let (v, dir) := v.makeDirs names.dropLast
    match v.follow .creating maxLinks dir [name] with
    | .ok target => v.insert target item
    | .error _ => v

-- A link is removed and not followed.
def remove (v : Volume) (names : List String) : Volume :=
  match names.getLast? with
  | none => v
  | some name =>
    let (v, dir) := v.makeDirs names.dropLast
    let gone := fun place => (dir ++ [name]).isPrefixOf place
    { v with
      items := v.items.filter fun (place, _) => !gone place
      removed :=
        if gone v.currentDir then max v.removed (v.currentDir.length - dir.length) else v.removed }

def changeDir (v : Volume) (names : List String) : Volume :=
  match v.follow .existing maxLinks [] names with
  | .ok place => { v with currentDir := place, removed := 0 }
  | .error _ => v

end Volume

end TestLens
