import WireMapper.Mapping.Field

/-!
The mapping of a message. Each field comes to one outcome: it is mapped, left out as unused, or
failed; a field that fails does not keep the others from being mapped.
-/

namespace WireMapper.Mapping

open Hierarchy (Cache)

inductive FieldOutcome where
  | mapped (mapping : FieldMapping)
  | skipped (field : String)
  | failed (field : String) (error : Error)
deriving DecidableEq, Repr

inductive Severity where
  | warning
  | error
deriving DecidableEq, Repr

def Severity.name : Severity → String
  | warning => "warning"
  | error => "error"

structure Diagnostic where
  severity : Severity
  message : String
  field : String
  code : Nat
  detail : String
deriving DecidableEq, Repr

/-- What there is to say about a field of a message: a failure, or that its access is a guess. -/
def FieldOutcome.diagnostic? (message : String) : FieldOutcome → Option Diagnostic
  | skipped _ => none
  | failed field e => some ⟨.error, message, field, e.code, e.message⟩
  | mapped m =>
    match m.domain.access with
    | .resolved _ => none
    | .assumedDirect e =>
      some ⟨.warning, message, m.field, e.code,
        "visibility unresolved, assuming direct access: " ++ e.message⟩

/-- The mapping of a message, with an outcome for each field in the order of the schema. -/
structure MessageMapping where
  /-- The full name of the wire message. -/
  message : String
  domainClass : String
  outcomes : List FieldOutcome
deriving DecidableEq, Repr

namespace MessageMapping

def fields (m : MessageMapping) : List FieldMapping :=
  m.outcomes.filterMap fun
    | .mapped mapping => some mapping
    | _ => none

def skipped (m : MessageMapping) : List String :=
  m.outcomes.filterMap fun
    | .skipped field => some field
    | _ => none

def diagnostics (m : MessageMapping) : List Diagnostic :=
  m.outcomes.filterMap (·.diagnostic? m.message)

def hasErrors (m : MessageMapping) : Bool :=
  m.diagnostics.any (·.severity = .error)

end MessageMapping

namespace Generator

variable (g : Generator)

def outcome (m : Fin g.schema.size.messages) (f : Field g.schema.size) (cache : Cache) :
    FieldOutcome × Cache :=
  match g.domainField m f cache with
  | (.error e, cache) => (.failed f.declaredName e, cache)
  | (.ok none, cache) => (.skipped f.declaredName, cache)
  | (.ok (some d), cache) =>
    match g.mapField m f d with
    | .error e => (.failed f.declaredName e, cache)
    | .ok mapping => (.mapped mapping, cache)

def outcomes (m : Fin g.schema.size.messages) :
    List (Field g.schema.size) → Cache → List FieldOutcome × Cache
  | [], cache => ([], cache)
  | f :: fs, cache =>
    let (first, cache) := g.outcome m f cache
    let (rest, cache) := outcomes m fs cache
    (first :: rest, cache)

def mapMessage (m : Fin g.schema.size.messages) (cache : Cache) : MessageMapping × Cache :=
  let (outcomes, cache) := g.outcomes m (g.schema.message m).fields cache
  (⟨(g.schema.message m).fullName, g.schema.domainName m, outcomes⟩, cache)

def mapMessages : List (Fin g.schema.size.messages) → Cache → List MessageMapping × Cache
  | [], cache => ([], cache)
  | m :: ms, cache =>
    let (first, cache) := g.mapMessage m cache
    let (rest, cache) := mapMessages ms cache
    (first :: rest, cache)

/-- The messages that are mapped when none are named: those of the schema proper that do not stand
for the entries of a map. -/
def allMessages : List (Fin g.schema.size.messages) :=
  g.schema.ownMessages.filter fun m => !(g.schema.message m).isMapEntry

end Generator

end WireMapper.Mapping
