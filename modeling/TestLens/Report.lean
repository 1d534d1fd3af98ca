import TestLens.Failure
import TestLens.Lens.Wire

namespace TestLens

open Json (slots required optional listOf)

def schemaVersion : String := "1"

structure FileReport where
  path : String
  lenses : List Lens
  deriving DecidableEq, Repr

namespace FileReport

def fieldNames : List String :=
  ["path", "lenses"]

def encode (r : FileReport) : Json :=
  .obj [("path", .str r.path), ("lenses", .arr (r.lenses.map Lens.encode))]

def ofSlots? : List (Option Json) → Option FileReport
  | [path, lenses] => do
    let path ← required Json.toText? path
    let lenses ← required (listOf Lens.decode?) lenses
    return { path, lenses }
  | _ => none

def decode? (j : Json) : Option FileReport :=
  (slots fieldNames .exact j).bind ofSlots?

end FileReport

structure LensReport where
  status : String
  version : String
  files : List FileReport
  deriving DecidableEq, Repr

namespace LensReport

def ok (files : List FileReport) : LensReport where
  status := "ok"
  version := schemaVersion
  files := files

def lensCount (r : LensReport) : Nat :=
  (r.files.flatMap FileReport.lenses).length

def fieldNames : List String :=
  ["status", "schema_version", "files"]

def encode (r : LensReport) : Json :=
  .obj [("status", .str r.status), ("schema_version", .str r.version),
    ("files", .arr (r.files.map FileReport.encode))]

def ofSlots? : List (Option Json) → Option LensReport
  | [status, version, files] => do
    let status ← required Json.toText? status
    let version ← required Json.toText? version
    let files ← required (listOf FileReport.decode?) files
    return { status, version, files }
  | _ => none

def decode? (j : Json) : Option LensReport :=
  (slots fieldNames .exact j).bind ofSlots?

end LensReport

namespace BaseCommand

def encode (b : BaseCommand) : Json :=
  .obj [("command", .str b.command), ("source", .str b.origin.tag), ("bundled", .bool b.bundled)]

def report (b : BaseCommand) : Json :=
  .obj [("status", .str "ok"), ("schema_version", .str schemaVersion), ("base_command", b.encode)]

end BaseCommand

structure ErrorInfo where
  code : UInt8
  message : String
  details : Option Json

namespace ErrorInfo

def ofFailure (f : Failure) : ErrorInfo where
  code := f.code
  message := f.message
  details := f.details

def fieldNames : List String :=
  ["code", "message", "details"]

def encode (e : ErrorInfo) : Json :=
  .obj ([("code", .nat e.code.toNat), ("message", .str e.message)] ++
    (e.details.map fun details => ("details", details)).toList)

def ofSlots? : List (Option Json) → Option ErrorInfo
  | [code, message, details] => do
    let code ← required Json.toByte? code
    let message ← required Json.toText? message
    let details ← optional some details
    return { code, message, details }
  | _ => none

def decode? (j : Json) : Option ErrorInfo :=
  (slots fieldNames .exact j).bind ofSlots?

end ErrorInfo

structure ErrorReport where
  status : String
  version : String
  error : ErrorInfo

namespace ErrorReport

def ofFailure (f : Failure) : ErrorReport where
  status := "error"
  version := schemaVersion
  error := ErrorInfo.ofFailure f

def fieldNames : List String :=
  ["status", "schema_version", "error"]

def encode (r : ErrorReport) : Json :=
  .obj [("status", .str r.status), ("schema_version", .str r.version), ("error", r.error.encode)]

def ofSlots? : List (Option Json) → Option ErrorReport
  | [status, version, error] => do
    let status ← required Json.toText? status
    let version ← required Json.toText? version
    let error ← required ErrorInfo.decode? error
    return { status, version, error }
  | _ => none

def decode? (j : Json) : Option ErrorReport :=
  (slots fieldNames .exact j).bind ofSlots?

end ErrorReport

end TestLens
