import TestLens.Command
import TestLens.Json
import TestLens.Text.Quoted

namespace TestLens.Log

-- Levels, from the gravest to the most verbose.
inductive Level where
  | error
  | warn
  | info
  | debug
  | trace
  deriving DecidableEq, Repr

namespace Level

def verbosity : Level → Nat
  | .error => 1
  | .warn => 2
  | .info => 3
  | .debug => 4
  | .trace => 5

def all : List Level :=
  [.error, .warn, .info, .debug, .trace]

def tag : Level → String
  | .error => "ERROR"
  | .warn => "WARN"
  | .info => "INFO"
  | .debug => "DEBUG"
  | .trace => "TRACE"

def word : Level → String
  | .error => "error"
  | .warn => "warn"
  | .info => "info"
  | .debug => "debug"
  | .trace => "trace"

def ofWord? (s : String) : Option Level :=
  all.find? fun level => level.word = s

def atLeast (a b : Level) : Level :=
  if a.verbosity < b.verbosity then b else a

end Level

inductive Event where
  | resolvedBase (base : BaseCommand)
  | syntaxErrors (file : String)
  | emitted (method name path : String) (line : UInt32) (command : String)
  -- A group keyword that opens no group of the framework.
  | skipped (method path : String) (line : UInt32) (receiver : Option String) (block : Bool)
  | collected (file : String) (lenses : Nat)
  deriving DecidableEq, Repr

namespace Event

def level : Event → Level
  | .resolvedBase _ => .debug
  | .syntaxErrors _ => .warn
  | .emitted .. => .debug
  | .skipped .. => .debug
  | .collected _ _ => .info

def message : Event → String
  | .resolvedBase _ => "resolved base command"
  | .syntaxErrors _ => "syntax errors in source, lenses may be incomplete"
  | .emitted method name path line command =>
    "[CodeLens] " ++ method ++ " " ++ Text.quoted name ++ " at " ++ target path line ++ " -> " ++
      command
  | .skipped method path line receiver block =>
    "[CodeLens] skipping " ++ method ++ " at " ++ target path line ++ " (receiver: " ++
      Text.quotedOption receiver ++ ", block: " ++ toString block ++ ")"
  | .collected _ _ => "collected lenses"

def fields : Event → List (String × Json)
  | .resolvedBase base =>
    [("command", .str base.command), ("source", .str base.origin.display),
     ("bundled", .bool base.bundled)]
  | .syntaxErrors file => [("file", .str file)]
  | .emitted .. => []
  | .skipped .. => []
  | .collected file lenses => [("file", .str file), ("lenses", .nat lenses)]

def json (e : Event) : Json :=
  .obj ([("level", .str e.level.tag), ("message", .str e.message)] ++ e.fields)

def plain : Json → String
  | .str s => s
  | .bool b => toString b
  | .num mantissa 0 => toString mantissa
  | _ => ""

-- An event as a line of text. The message is shown to a terminal, so it has to be inert.
def line (e : Event) : String :=
  " ".intercalate
    ([e.level.tag, Text.inert e.message] ++ e.fields.map fun (key, j) => key ++ "=" ++ plain j)

end Event

structure Filter where
  limit : Option Level
  deriving DecidableEq, Repr

namespace Filter

def ofWord? (s : String) : Option Filter :=
  if s = "off" then some ⟨none⟩ else (Level.ofWord? s).map fun level => ⟨some level⟩

def passes (f : Filter) (e : Event) : Bool :=
  match f.limit with
  | none => false
  | some level => e.level.verbosity ≤ level.verbosity

end Filter

end TestLens.Log
