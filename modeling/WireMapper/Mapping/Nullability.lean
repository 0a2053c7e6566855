import WireMapper.Schema.Basic

/-!
Marks on the fields of domain classes that say whether they can be null.
-/

namespace WireMapper.Mapping

inductive Marker where
  | nullable
  | notNull
deriving DecidableEq, Repr

namespace Marker

def name : Marker → String
  | nullable => "nullable"
  | notNull => "not_null"

def annotationText : Marker → String
  | nullable => "@Nullable"
  | notNull => "@NotNull"

def ofNullable (isNullable : Bool) : Marker :=
  if isNullable then nullable else notNull

end Marker

inductive MarkerPolicy where
  /-- As each file says, and by the default in files that say nothing. -/
  | perFile (default : Bool)
  | never
deriving DecidableEq, Repr

def MarkerPolicy.marks (policy : MarkerPolicy) (file : SchemaFile) : Bool :=
  match policy with
  | perFile default => file.annotations?.getD default
  | never => false

end WireMapper.Mapping
