import TestLens.Log

namespace TestLens

inductive Format where
  | json
  | text
  deriving DecidableEq, Repr

namespace Format

def ofWord? : String → Option Format
  | "json" => some .json
  | "text" => some .text
  | _ => none

end Format

namespace CommandLine

inductive Valued where
  | workspace
  | command
  | logLevel
  | format
  deriving DecidableEq, Repr

namespace Valued

def ofName? : String → Option Valued
  | "workspace" => some .workspace
  | "command" => some .command
  | "log-level" => some .logLevel
  | "format" => some .format
  | _ => none

end Valued

inductive Flag where
  | debug
  | logJson
  deriving DecidableEq, Repr

namespace Flag

def ofName? : String → Option Flag
  | "debug" => some .debug
  | "log-json" => some .logJson
  | _ => none

end Flag

structure Side where
  workspace : Option String
  command : Option String
  logLevel : Option Log.Level
  format : Option Format
  debug : Bool
  logJson : Bool
  deriving DecidableEq, Repr

namespace Side

def empty : Side where
  workspace := none
  command := none
  logLevel := none
  format := none
  debug := false
  logJson := false

def setOnce {α : Type} (old new : Option α) : Option α :=
  if old.isSome then none else new

def give (s : Side) (option : Valued) (value : String) : Option Side :=
  match option with
  | .workspace =>
    if value = "" then none
    else (setOnce s.workspace (some value)).map fun v => { s with workspace := some v }
  | .command => (setOnce s.command (some value)).map fun v => { s with command := some v }
  | .logLevel =>
    (setOnce s.logLevel (Log.Level.ofWord? value)).map fun v => { s with logLevel := some v }
  | .format => (setOnce s.format (Format.ofWord? value)).map fun v => { s with format := some v }

def raise (s : Side) : Flag → Option Side
  | .debug => if s.debug then none else some { s with debug := true }
  | .logJson => if s.logJson then none else some { s with logJson := true }

-- Options may stand before and after the subcommand, once on either side. Those after it win.
def merge (before after : Side) : Side where
  workspace := after.workspace.or before.workspace
  command := after.command.or before.command
  logLevel := after.logLevel.or before.logLevel
  format := after.format.or before.format
  debug := before.debug || after.debug
  logJson := before.logJson || after.logJson

end Side

inductive Word where
  | dashes
  -- A name after two dashes, and what stands behind an equals sign.
  | long (name : String) (attached : Option String)
  | short (letters : List Char)
  | plain (text : String)
  deriving DecidableEq, Repr

namespace Word

def splitValue (cs : List Char) : String × Option String :=
  let name := cs.takeWhile (· ≠ '=')
  match cs.dropWhile (· ≠ '=') with
  | [] => (String.ofList name, none)
  | _ :: value => (String.ofList name, some (String.ofList value))

-- One dash alone is a plain word.
def read (s : String) : Word :=
  match s.toList with
  | ['-', '-'] => .dashes
  | '-' :: '-' :: cs => .long (splitValue cs).1 (splitValue cs).2
  | '-' :: c :: cs => .short (c :: cs)
  | _ => .plain s

end Word

-- When the value is to come, the option is handed back. It takes the next word, which must not look
-- like an option.
def takeLong (s : Side) (name : String) (attached : Option String) :
    Option (Side × Option Valued) :=
  match Valued.ofName? name, attached with
  | some option, some value => (s.give option value).map fun s => (s, none)
  | some option, none => some (s, some option)
  | none, some _ => none
  | none, none => do
    let flag ← Flag.ofName? name
    return (← s.raise flag, none)

def readTail (s : Side) (pending : Option Valued) (plain : List String) :
    List String → Option (Side × List String)
  | [] => if pending.isSome then none else some (s, plain)
  | w :: ws =>
    match Word.read w, pending with
    | .plain text, some option => do readTail (← s.give option text) none plain ws
    | .plain text, none => readTail s none (plain ++ [text]) ws
    | .long name attached, none => do
      let (s, pending) ← takeLong s name attached
      readTail s pending plain ws
    | .dashes, none => some (s, plain ++ ws)
    | _, _ => none

inductive Action where
  | lens (files : List String)
  | baseCommand
  deriving DecidableEq, Repr

inductive Request where
  | version
  | act (options : Side) (action : Action)
  deriving DecidableEq, Repr

def readLens (before : Side) (ws : List String) : Option Request := do
  let (after, files) ← readTail .empty none [] ws
  if files.isEmpty || files.contains "" then none
  else return .act (before.merge after) (.lens files)

def readBaseCommand (before : Side) (ws : List String) : Option Request := do
  let (after, words) ← readTail .empty none [] ws
  if words.isEmpty then return .act (before.merge after) .baseCommand else none

def readHead (s : Side) (pending : Option Valued) : List String → Option Request
  | [] => none
  | w :: ws =>
    match Word.read w, pending with
    | .plain text, some option => do readHead (← s.give option text) none ws
    | .plain "lens", none => readLens s ws
    | .plain "base-command", none => readBaseCommand s ws
    | .long "version" none, none => some .version
    | .short ('V' :: _), none => some .version
    | .long name attached, none => do
      let (s, pending) ← takeLong s name attached
      readHead s pending ws
    | _, _ => none

def read? (words : List String) : Option Request :=
  readHead .empty none words

end CommandLine

end TestLens
