import WireMapper.Config
import WireMapper.Mapping.Json
import WireMapper.Text.Lines

/-!
The report on the mappings of a schema, with totals, as JSON and as text for people.
-/

namespace WireMapper

open Mapping (FieldMapping MessageMapping Diagnostic)

structure Summary where
  messages : Nat
  fields : Nat
  skipped : Nat
  /-- The fields that are reached through accessors. -/
  accessors : Nat
  warnings : Nat
  errors : Nat
deriving DecidableEq, Repr

namespace Summary

def ofMessages (messages : List MessageMapping) : Summary :=
  let fields := messages.flatMap (·.fields)
  let diagnostics := messages.flatMap (·.diagnostics)
  { messages := messages.length
    fields := fields.length
    skipped := (messages.flatMap (·.skipped)).length
    accessors := (fields.filter (·.needsAccessor)).length
    warnings := (diagnostics.filter (·.severity = .warning)).length
    errors := (diagnostics.filter (·.severity = .error)).length }

def toJson (s : Summary) : Json :=
  .object [("messages", .number s.messages), ("fields", .number s.fields),
    ("skipped", .number s.skipped), ("accessors", .number s.accessors),
    ("warnings", .number s.warnings), ("errors", .number s.errors)]

def toText (s : Summary) : String :=
  "summary: " ++ toString s.messages ++ " messages, " ++ toString s.fields ++ " fields, " ++
    toString s.skipped ++ " skipped, " ++ toString s.accessors ++ " accessors, " ++
    toString s.warnings ++ " warnings, " ++ toString s.errors ++ " errors"

end Summary

structure Report where
  schema : Path
  sourceRoots : List Path
  messages : List MessageMapping
deriving DecidableEq, Repr

namespace Report

def summary (r : Report) : Summary :=
  .ofMessages r.messages

def hasErrors (r : Report) : Bool :=
  r.summary.errors ≠ 0

def toJson (r : Report) : Json :=
  .object [("schema", .string r.schema.text),
    ("source_roots", .array (r.sourceRoots.map fun root => .string root.text)),
    ("summary", r.summary.toJson), ("messages", .array (r.messages.map (·.toJson)))]

/-- A fragment after its label, which takes nine columns; further lines start below the first one.
-/
def fragmentLines (label : String) (fragment : Fragment) : List String :=
  match Text.lines fragment.code with
  | [] => []
  | first :: rest =>
    ("    " ++ label ++ " " ++ first) :: rest.map ("              " ++ ·)

def fieldLines (m : FieldMapping) : List String :=
  let identifier := m.domain.identifier
  let marker := (identifier.marker?.map (·.annotationText ++ " ")).getD ""
  let access := if m.needsAccessor then " [accessor]" else ""
  ("  " ++ m.field ++ ": " ++ marker ++ identifier.javaType ++ " " ++ identifier.name ++ access) ::
    fragmentLines "toGrpc:  " m.toWire ++ fragmentLines "fromGrpc:" m.fromWire

def diagnosticLine (d : Diagnostic) : String :=
  "  " ++ d.severity.name ++ " " ++ d.field ++ " (" ++ toString d.code ++ "): " ++ d.detail

def messageLines (m : MessageMapping) : List String :=
  let skipped :=
    if m.skipped.isEmpty then [] else ["  skipped: " ++ ", ".intercalate m.skipped]
  ("message " ++ m.message ++ " -> " ++ m.domainClass) ::
    m.fields.flatMap fieldLines ++ skipped ++ m.diagnostics.map diagnosticLine

/-- The report for people. The last line is not ended. -/
def toText (r : Report) : String :=
  String.join ((r.messages.flatMap messageLines).map (· ++ "\n")) ++ r.summary.toText

def render (r : Report) : OutputFormat → String
  | .json => r.toJson.pretty
  | .text => r.toText

end Report

end WireMapper
