namespace TestLens.Text

-- The characters after the first `n` bytes, if these end with a whole character.
def dropBytes : Nat → List Char → Option (List Char)
  | 0, cs => some cs
  | _ + 1, [] => none
  | n + 1, c :: cs => if c.utf8Size ≤ n + 1 then dropBytes (n + 1 - c.utf8Size) cs else none

def takeBytes : Nat → List Char → Option (List Char)
  | 0, _ => some []
  | _ + 1, [] => none
  | n + 1, c :: cs =>
    if c.utf8Size ≤ n + 1 then (takeBytes (n + 1 - c.utf8Size) cs).map (c :: ·) else none

def slice? (cs : List Char) (start stop : Nat) : Option (List Char) :=
  if start ≤ stop then (dropBytes start cs).bind (takeBytes (stop - start)) else none

-- The row is the number of newlines before the offset, and the column the number of bytes since the
-- last of them.
def locate (cs : List Char) (offset : Nat) : Nat × Nat :=
  go 0 0 offset cs
where
  go (row column : Nat) : Nat → List Char → Nat × Nat
    | 0, _ => (row, column)
    | n + 1, [] => (row, column + (n + 1))
    | n + 1, c :: cs =>
      if c = '\n' then go (row + 1) 0 n cs
      else if c.utf8Size ≤ n + 1 then go row (column + c.utf8Size) (n + 1 - c.utf8Size) cs
      else (row, column + (n + 1))

end TestLens.Text
