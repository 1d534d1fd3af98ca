namespace TestLens

inductive Kind where
  | call
  | string
  | stringContent
  | escapeSequence
  | interpolation
  | heredocBeginning
  | heredocBody
  | heredocContent
  | identifier
  | constant
  | blockArgument
  | comment
  | other (name : String)
  deriving DecidableEq, Repr

namespace Kind

def names : List (String × Kind) :=
  [("call", .call), ("string", .string), ("string_content", .stringContent),
   ("escape_sequence", .escapeSequence), ("interpolation", .interpolation),
   ("heredoc_beginning", .heredocBeginning), ("heredoc_body", .heredocBody),
   ("heredoc_content", .heredocContent), ("identifier", .identifier), ("constant", .constant),
   ("block_argument", .blockArgument), ("comment", .comment)]

def ofName (name : String) : Kind :=
  (names.lookup name).getD (.other name)

end Kind

inductive Field where
  | receiver
  | method
  | arguments
  | block
  deriving DecidableEq, Repr

namespace Field

def ofName? : String → Option Field
  | "receiver" => some .receiver
  | "method" => some .method
  | "arguments" => some .arguments
  | "block" => some .block
  | _ => none

end Field

structure Node where
  kind : Kind
  start : Nat
  stop : Nat
  named : Bool
  -- The node may stand anywhere in its text, like a comment.
  extra : Bool
  field : Option Field
  children : List Node
  deriving Repr

namespace Node

def preorder : Node → List Node
  | n@⟨_, _, _, _, _, _, children⟩ => n :: below children
where
  below : List Node → List Node
    | [] => []
    | c :: cs => c.preorder ++ below cs

theorem preorder_eq (n : Node) : n.preorder = n :: preorder.below n.children := by
  cases n; rfl

def child? (n : Node) (field : Field) : Option Node :=
  n.children.find? fun c => c.field = some field

def namedChildren (n : Node) : List Node :=
  n.children.filter fun c => c.named

end Node

structure Parse where
  root : Node
  hasErrors : Bool
  deriving Repr

structure Document extends Parse where
  text : String
  deriving Repr

namespace Document

def summary (d : Document) : String :=
  "ParsedSource \x7b bytes: " ++ toString d.text.utf8ByteSize ++ ", has_errors: " ++
    toString d.hasErrors ++ " \x7d"

end Document

end TestLens
