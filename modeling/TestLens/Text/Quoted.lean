import TestLens.Text.Markless

namespace TestLens.Text

def hex (n : Nat) : List Char :=
  Nat.toDigits 16 n

-- The control characters from 128 on, which terminals take for the start of a command.
def isHighControl (c : Char) : Bool :=
  0x80 ≤ c.toNat && c.toNat ≤ 0x9f

def codePoint (c : Char) : List Char :=
  ['\\', 'u', '\x7b'] ++ hex c.toNat ++ ['\x7d']

-- Whether a reader would not see which character it is.
def isUnseen (c : Char) : Bool :=
  c.toNat < 0x20 || c.toNat == 0x7f || isMarkless c

def quoteChar (c : Char) : List Char :=
  if c = '"' then ['\\', '"']
  else if c = '\\' then ['\\', '\\']
  else if c = '\n' then ['\\', 'n']
  else if c = '\r' then ['\\', 'r']
  else if c = '\t' then ['\\', 't']
  else if c = '\x00' then ['\\', '0']
  else if isUnseen c then codePoint c
  else [c]

def quoted (s : String) : String :=
  String.ofList (['"'] ++ s.toList.flatMap quoteChar ++ ['"'])

def quotedOption : Option String → String
  | none => "None"
  | some s => "Some(" ++ quoted s ++ ")"

-- Escape, bell, backspace, form feed and delete.
def isTerminalControl (c : Char) : Bool :=
  c = '\x1b' || c = '\x07' || c = '\x08' || c = '\x0c' || c = '\x7f'

def inertChar (c : Char) : List Char :=
  if isTerminalControl c then ['\\', 'x'] ++ (if c.toNat < 0x10 then ['0'] else []) ++ hex c.toNat
  else if isHighControl c then codePoint c
  else [c]

def inert (s : String) : String :=
  String.ofList (s.toList.flatMap inertChar)

end TestLens.Text
