import TestLens.Json

namespace TestLens.Json

def controlDigits (n : Nat) : List Char :=
  ['0', '0', (n / 16).digitChar, (n % 16).digitChar]

def escape (c : Char) : List Char :=
  if c = '"' then ['\\', '"']
  else if c = '\\' then ['\\', '\\']
  else if c = '\x08' then ['\\', 'b']
  else if c = '\x0c' then ['\\', 'f']
  else if c = '\n' then ['\\', 'n']
  else if c = '\r' then ['\\', 'r']
  else if c = '\t' then ['\\', 't']
  else if c.toNat < 0x20 then ['\\', 'u'] ++ controlDigits c.toNat
  else [c]

def quote (s : String) : List Char :=
  '"' :: s.toList.flatMap escape ++ ['"']

-- Decimal digits with a point before the last `scale` of them.
def digits (n scale : Nat) : List Char :=
  if scale = 0 then Nat.toDigits 10 n
  else
    let unit := Nat.pow 10 scale
    Nat.toDigits 10 (n / unit) ++ '.' :: (Nat.toDigits 10 (unit + n % unit)).drop 1

def number : Int → Nat → List Char
  | .ofNat n, scale => digits n scale
  | .negSucc n, scale => '-' :: digits (n + 1) scale

def lineBreak (depth : Nat) : List Char :=
  '\n' :: List.replicate (2 * depth) ' '

def enclose (left right : Char) (depth : Nat) (items : List (List Char)) : List Char :=
  if items.isEmpty then [left, right]
  else left :: lineBreak (depth + 1) ++ (',' :: lineBreak (depth + 1)).intercalate items ++
    lineBreak depth ++ [right]

-- Every member and every item stands on a line of its own, and an empty object or list is closed on
-- the spot.
def chars (depth : Nat) : Json → List Char
  | .null => ['n', 'u', 'l', 'l']
  | .bool true => ['t', 'r', 'u', 'e']
  | .bool false => ['f', 'a', 'l', 's', 'e']
  | .num mantissa scale => number mantissa scale
  | .str s => quote s
  | .arr items => enclose '[' ']' depth (itemChars (depth + 1) items)
  | .obj members => enclose '\x7b' '\x7d' depth (memberChars (depth + 1) members)
where
  itemChars (depth : Nat) : List Json → List (List Char)
    | [] => []
    | j :: js => chars depth j :: itemChars depth js
  memberChars (depth : Nat) : List (String × Json) → List (List Char)
    | [] => []
    | (key, j) :: ms => (quote key ++ [':', ' '] ++ chars depth j) :: memberChars depth ms

def pretty (j : Json) : String :=
  String.ofList (chars 0 j ++ ['\n'])

def inlineChars : Json → List Char
  | .null => ['n', 'u', 'l', 'l']
  | .bool true => ['t', 'r', 'u', 'e']
  | .bool false => ['f', 'a', 'l', 's', 'e']
  | .num mantissa scale => number mantissa scale
  | .str s => quote s
  | .arr items => '[' :: [','].intercalate (itemChars items) ++ [']']
  | .obj members => '\x7b' :: [','].intercalate (memberChars members) ++ ['\x7d']
where
  itemChars : List Json → List (List Char)
    | [] => []
    | j :: js => inlineChars j :: itemChars js
  memberChars : List (String × Json) → List (List Char)
    | [] => []
    | (key, j) :: ms => (quote key ++ ':' :: inlineChars j) :: memberChars ms

def inline (j : Json) : String :=
  String.ofList (inlineChars j)

end TestLens.Json
