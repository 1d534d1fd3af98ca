import TestLens.Json.Shape
import TestLens.Lens

namespace TestLens

open Json (slots required optional)

namespace GroupId

def encode (id : GroupId) : Json :=
  .word id.val

def decode? (j : Json) : Option GroupId :=
  j.toWord?.map GroupId.mk

def encodeOption : Option GroupId → Json
  | none => .null
  | some id => id.encode

@[simp] theorem decode?_encode (id : GroupId) : decode? id.encode = some id := by
  simp [decode?, encode]

end GroupId

def cornerNames : List String :=
  ["start_line", "start_column", "end_line", "end_column"]

def encodeCorners (startLine startColumn endLine endColumn : UInt32) : Json :=
  .obj [("start_line", .word startLine), ("start_column", .word startColumn),
    ("end_line", .word endLine), ("end_column", .word endColumn)]

def cornersOfSlots? {α : Type} (build : UInt32 → UInt32 → UInt32 → UInt32 → α) :
    List (Option Json) → Option α
  | [startLine, startColumn, endLine, endColumn] => do
    let startLine ← required Json.toWord? startLine
    let startColumn ← required Json.toWord? startColumn
    let endLine ← required Json.toWord? endLine
    let endColumn ← required Json.toWord? endColumn
    return build startLine startColumn endLine endColumn
  | _ => none

def Extent.encode (e : Extent) : Json :=
  encodeCorners e.startLine e.startColumn e.endLine e.endColumn

def Extent.decode? (j : Json) : Option Extent :=
  (slots cornerNames .exact j).bind (cornersOfSlots? Extent.mk)

def Location.encode (l : Location) : Json :=
  encodeCorners l.startLine l.startColumn l.endLine l.endColumn

def Location.decode? (j : Json) : Option Location :=
  (slots cornerNames .exact j).bind (cornersOfSlots? Location.mk)

namespace Position

def fieldNames : List String :=
  ["line", "character"]

def encode (p : Position) : Json :=
  .obj [("line", .word p.line), ("character", .word p.character)]

def ofSlots? : List (Option Json) → Option Position
  | [line, character] => do
    let line ← required Json.toWord? line
    let character ← required Json.toWord? character
    return { line, character }
  | _ => none

def decode? (j : Json) : Option Position :=
  (slots fieldNames .exact j).bind ofSlots?

end Position

namespace Range

def fieldNames : List String :=
  ["start", "end"]

def encode (r : Range) : Json :=
  .obj [("start", r.start.encode), ("end", r.stop.encode)]

def ofSlots? : List (Option Json) → Option Range
  | [start, stop] => do
    let start ← required Position.decode? start
    let stop ← required Position.decode? stop
    return { start, stop }
  | _ => none

def decode? (j : Json) : Option Range :=
  (slots fieldNames .exact j).bind ofSlots?

end Range

namespace LensKind

def encode (kind : LensKind) : Json :=
  .str kind.tag

-- A kind is its tag, or an object whose only key is the tag and whose value is null.
def decode? : Json → Option LensKind
  | .str s => ofTag? s
  | .obj [(key, .null)] => ofTag? key
  | _ => none

@[simp] theorem decode?_encode (kind : LensKind) : decode? kind.encode = some kind :=
  ofTag?_tag kind

end LensKind

namespace LensArguments

def encode (a : LensArguments) : Json :=
  .arr [.str a.path, .str a.name, .str a.command, a.location.encode]

def decode? : Json → Option LensArguments
  | .arr [path, name, command, location] => do
    let path ← path.toText?
    let name ← name.toText?
    let command ← command.toText?
    let location ← Location.decode? location
    return { path, name, command, location }
  | _ => none

end LensArguments

namespace LensData

def fieldNames : List String :=
  ["type", "group_id", "id"]

def encode (d : LensData) : Json :=
  .obj ([("type", d.kind.encode), ("group_id", GroupId.encodeOption d.group)] ++
    (d.id.map fun id => ("id", id.encode)).toList)

def ofSlots? : List (Option Json) → Option LensData
  | [kind, group, id] => do
    let kind ← required LensKind.decode? kind
    let group ← optional GroupId.decode? group
    let id ← optional GroupId.decode? id
    return { kind, group, id }
  | _ => none

def decode? (j : Json) : Option LensData :=
  (slots fieldNames .lastOptional j).bind ofSlots?

end LensData

namespace Lens

def fieldNames : List String :=
  ["title", "command", "arguments", "data", "range"]

def encode (lens : Lens) : Json :=
  .obj [("title", .str lens.title), ("command", .str lens.action),
    ("arguments", lens.arguments.encode), ("data", lens.data.encode), ("range", lens.range.encode)]

def ofSlots? : List (Option Json) → Option Lens
  | [title, action, arguments, data, range] => do
    let title ← required Json.toText? title
    let action ← required Json.toText? action
    let arguments ← required LensArguments.decode? arguments
    let data ← required LensData.decode? data
    let range ← required Range.decode? range
    return { title, action, arguments, data, range }
  | _ => none

def decode? (j : Json) : Option Lens :=
  (slots fieldNames .exact j).bind ofSlots?

end Lens

end TestLens
