import WireMapper.Java.Expr
import WireMapper.Naming
import WireMapper.TypeModel

/-!
The two conversions of a type model as Java expressions. Towards the wire a value is turned into
what a builder accepts; from the wire, what a getter returns is turned into the domain value. A
conversion uses its operand once, outside every lambda, and the lambdas inside one another have
parameters of their own.
-/

namespace WireMapper

structure Accessors where
  getter : String
  setter : String
  has : String
deriving DecidableEq, Repr

namespace TypeModel

open Java (Expr)

def accessors (model : TypeModel) (field : String) : Accessors :=
  let suffix := Naming.accessorSuffix field
  match model with
  | repeated .. => ⟨"get" ++ suffix ++ "List", "addAll" ++ suffix, "has" ++ suffix⟩
  | map .. => ⟨"get" ++ suffix ++ "Map", "putAll" ++ suffix, "has" ++ suffix⟩
  | _ => ⟨"get" ++ suffix, "set" ++ suffix, "has" ++ suffix⟩

/-- The parameter of a lambda inside `depth` others. -/
def lambdaParameter (depth : Nat) : String :=
  if depth = 0 then "it" else "it" ++ toString depth

def streamOf (collection : Expr) : Expr :=
  .call collection "stream" []

def collector (method : String) (arguments : List Expr) : Expr :=
  .call (.source "Collectors") method arguments

/-- The map whose entries are made from those of another one by two lambdas. -/
def mapEntries (entries key value : Expr) : Expr :=
  .call (streamOf (.call entries "entrySet" [])) "collect" [collector "toMap" [key, value]]

def ofList (container : RepeatedContainer) (list : Expr) : Expr :=
  match container with
  | .list => list
  | .set => .construct "HashSet<>" [list]
  | .sortedSet => .construct "TreeSet<>" [list]
  | .immutableList => .call (.source "List") "copyOf" [list]
  | .immutableSet => .call (.source "Set") "copyOf" [list]
  | .stream => streamOf list

def ofStream (container : RepeatedContainer) (stream : Expr) : Expr :=
  match container with
  | .list | .immutableList => .call stream "toList" []
  | .set => .call stream "collect" [collector "toSet" []]
  | .sortedSet => .call stream "collect" [collector "toCollection" [.source "TreeSet::new"]]
  | .immutableSet => .call stream "collect" [collector "toUnmodifiableSet" []]
  | .stream => stream

def domainStream (container : RepeatedContainer) (collection : Expr) : Expr :=
  match container with
  | .stream => collection
  | _ => streamOf collection

/-- What a builder accepts for a domain value, inside `depth` lambdas. -/
def toWireExpr (model : TypeModel) (value : Expr) (depth : Nat) : Expr :=
  match model with
  | scalar .. => value
  | enum .. => .call value "toGrpc" []
  | message .. => .call value "toGrpc" []
  | repeated element container =>
    if element.isIdentity then
      match container with
      | .stream => .call value "toList" []
      | _ => value
    else
      let parameter := lambdaParameter depth
      let converted := element.toWireExpr (.source parameter) (depth + 1)
      .call (.call (domainStream container value) "map" [.lambda parameter converted]) "toList" []
  | map key entryValue =>
    if key.isIdentity && entryValue.isIdentity then
      value
    else
      let parameter := lambdaParameter depth
      let entry := Expr.source parameter
      mapEntries value
        (.lambda parameter (key.toWireExpr (.call entry "getKey" []) (depth + 1)))
        (.lambda parameter (entryValue.toWireExpr (.call entry "getValue" []) (depth + 1)))
  | unfolded wrapperType innerField inner =>
    .call
      (.call (.call (.source wrapperType) "newBuilder" [])
        (inner.accessors innerField).setter [inner.toWireExpr value depth])
      "build" []

/-- The domain value for what a getter returns, inside `depth` lambdas. -/
def fromWireExpr (model : TypeModel) (access : Expr) (depth : Nat) : Expr :=
  match model with
  | scalar .. => access
  | enum _ domainType => .call (.source domainType) "fromGrpc" [access]
  | message _ domainType => .call (.source domainType) "fromGrpc" [access]
  | repeated element container =>
    if element.isIdentity then
      ofList container access
    else
      let parameter := lambdaParameter depth
      let converted := element.fromWireExpr (.source parameter) (depth + 1)
      ofStream container (.call (streamOf access) "map" [.lambda parameter converted])
  | map key value =>
    if key.isIdentity && value.isIdentity then
      access
    else
      let parameter := lambdaParameter depth
      let entry := Expr.source parameter
      mapEntries access
        (.lambda parameter (key.fromWireExpr (.call entry "getKey" []) (depth + 1)))
        (.lambda parameter (value.fromWireExpr (.call entry "getValue" []) (depth + 1)))
  | unfolded _ innerField inner =>
    inner.fromWireExpr (.call access (inner.accessors innerField).getter []) depth

def toWire (model : TypeModel) (value : String) : String :=
  (model.toWireExpr (.source value) 0).render

def fromWire (model : TypeModel) (access : String) : String :=
  (model.fromWireExpr (.source access) 0).render

end TypeModel

end WireMapper
