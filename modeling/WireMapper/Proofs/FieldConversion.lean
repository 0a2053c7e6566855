import WireMapper.FieldConversion
import WireMapper.Proofs.Fragment
import WireMapper.Proofs.TypeModel.RoundTrip

/-!
A field that is copied onto a fresh builder reads back from the built message as it was. The
fragments are the written form of one statement and one expression, and these are what is run here.
-/

namespace WireMapper

open Java Java.Evaluation

inductive Statement where
  | run (call : Expr)
  /-- Runs the body if the operand is not null. -/
  | whenPresent (operand : Expr) (body : Statement)

namespace Statement

/-- The written form. -/
def fragment : Statement → Fragment
  | run call => .ofStatement call.render
  | whenPresent operand body => .guarded (operand.render ++ " != null") body.fragment

variable {Atom : Type} (conversions : Conversions Atom) (traversal : Traversal Atom)

/-- The variables after the statement: a call on a variable changes what the variable holds. -/
noncomputable def exec (env : Env Atom) : Statement → Option (Env Atom)
  | run (.call (.source name) method arguments) =>
    ((eval conversions traversal env (.call (.source name) method arguments)).bind
      Meaning.value?).map (env.set name)
  | run _ => none
  | whenPresent operand body =>
    (eval conversions traversal env operand).bind fun
      | .value .null => some env
      | .value _ => exec env body
      | _ => none

/-- The message that a builder makes after the statement. -/
noncomputable def built (env : Env Atom) (statement : Statement) (builder : String) :
    Option (Value Atom) :=
  (statement.exec conversions traversal env).bind fun env' =>
    (eval conversions traversal env' (.call (.source builder) "build" [])).bind Meaning.value?

end Statement

namespace FieldConversion

def wireField (c : FieldConversion) : WireField :=
  c.model.wireField c.field

def copyStatement (c : FieldConversion) (builder value : String) : Statement :=
  let copy := Statement.run
    (.call (.source builder) c.accessors.setter [c.model.toWireExpr (.source value) 0])
  if c.nullable then .whenPresent (.source value) copy else copy

/-- The statement as it stands in the source, where its call takes one line: the call with a
semicolon behind it, and around it the guard of a field that can be absent. -/
theorem fragment_copyStatement (c : FieldConversion) (builder value : String) {call : String}
    (hcall : call = builder ++ "." ++ c.accessors.setter ++ "(" ++ c.model.toWire value ++ ");")
    (hline : '\n' ∉ call.toList) :
    (c.copyStatement builder value).fragment =
      .statement
        (if c.nullable then "if (" ++ value ++ " != null) \x7b\n    " ++ call ++ "\n\x7d"
        else call) := by
  have hstatement :
      Fragment.ofStatement
          (Expr.call (.source builder) c.accessors.setter
            [c.model.toWireExpr (.source value) 0]).render = .statement call := by
    rw [hcall]
    exact Fragment.ofStatement_parens _
  have hne : call ≠ "" := by simp [hcall]
  rw [copyStatement]
  cases c.nullable with
  | true =>
      have hguard : value ++ " != null" ++ ") \x7b\n    " = value ++ " != null) \x7b\n    " := by
        rw [String.append_assoc]
        rfl
      simp only [if_true, Statement.fragment]
      rw [hstatement, Fragment.guarded_line hline hne, Expr.render]
      simp only [← hguard, String.append_assoc]
  | false => exact hstatement

def readExpr (c : FieldConversion) (wire : String) : Expr :=
  let read := c.model.fromWireExpr (.call (.source wire) c.accessors.getter []) 0
  if c.nullable then
    .conditional (.call (.source wire) c.accessors.has []) read (.source "null")
  else
    read

/-- With a builder, the copying fragment is the written form of a statement. -/
theorem toWire_eq {c : FieldConversion} {builder : String} (hbuilder : builder ≠ "")
    (value : String) :
    c.toWire builder value =
      if c.nullable && c.model.isPrimitiveLike then .error c.primitiveError
      else .ok (c.copyStatement builder value).fragment := by
  rw [toWire]
  congr 1
  rw [setterCall, if_neg hbuilder, copyStatement]
  cases c.nullable with
  | true => rfl
  | false => exact if_neg hbuilder

/-- The reading fragment is the written form of an expression. -/
theorem fromWire_eq (c : FieldConversion) (wire : String) :
    c.fromWire wire =
      if c.nullable && c.model.isPrimitiveLike then .error c.primitiveError
      else .ok (.expression (c.readExpr wire).render) := by
  rw [fromWire]
  congr 1
  rw [readExpr]
  cases c.nullable <;> rfl

variable {Atom : Type}

/-- The statement makes a message, in which the given field is set if any, and from which the value
is read. -/
def Carries (conversions : Conversions Atom) (put get : Traversal Atom) (c : FieldConversion)
    (builder value wire : String) (env : Env Atom) (field? : Option WireField) (v : Value Atom) :
    Prop :=
  ∃ content,
    (c.copyStatement builder value).built conversions put env builder =
      some (.message field? content) ∧
    ∀ env' : Env Atom, env'.Standard → env' wire = some (.value (.message field? content)) →
      eval conversions get env' (c.readExpr wire) = some (.value v)

section Carries

variable {conversions : Conversions Atom} {put get : Traversal Atom} {c : FieldConversion}
  {builder value wire : String} {env : Env Atom} {v : Value Atom}

/-- The statement of a field that can be absent is that of the others, guarded. -/
theorem exec_whenPresent {statement : Statement} (hvalue : env value = some (.value v))
    (hnull : v ≠ .null) :
    (Statement.whenPresent (.source value) statement).exec conversions put env =
      statement.exec conversions put env := by
  rw [Statement.exec, eval, hvalue]
  cases v with
  | null => exact absurd rfl hnull
  | _ => rfl

/-- A value that is there is set on the builder in the form that its model stores it in. -/
theorem exec_copyStatement {y z : Value Atom} (hstandard : env.Standard)
    (hbuilder : env builder = some (.value (.builder none .null)))
    (hvalue : env value = some (.value v)) (hnull : v ≠ .null)
    (hconverts : c.model.Converts conversions put get v y z) :
    (c.copyStatement builder value).exec conversions put env =
      some (env.set builder (.builder (some c.wireField) z)) := by
  have hcall : (Statement.run (.call (.source builder) c.accessors.setter
      [c.model.toWireExpr (.source value) 0])).exec conversions put env =
        some (env.set builder (.builder (some c.wireField) z)) := by
    have hargument := hconverts.sends env (.source value) 0 hstandard (by rw [eval, hvalue])
    have hreceiver : eval conversions put env (.source builder) =
        some (.value (.builder none .null)) := by
      rw [eval, hbuilder]
    have hset := eval_setter c.wireField hreceiver hargument hconverts.stored
    rw [Statement.exec, accessors, TypeModel.accessors_eq]
    exact congrArg (fun m => Option.map (env.set builder) (Option.bind m Meaning.value?)) hset
  rw [copyStatement]
  cases c.nullable with
  | true => exact (exec_whenPresent hvalue hnull).trans hcall
  | false => exact hcall

/-- A null leaves the builder as it is. -/
theorem exec_copyStatement_null (hnullable : c.nullable = true)
    (hvalue : env value = some (.value .null)) :
    (c.copyStatement builder value).exec conversions put env = some env := by
  rw [copyStatement, if_pos hnullable, Statement.exec, eval, hvalue]
  rfl

theorem built_eq {statement : Statement} {env' : Env Atom} {field? : Option WireField}
    {content : Value Atom} (hexec : statement.exec conversions put env = some env')
    (hbuilder : env' builder = some (.value (.builder field? content))) :
    statement.built conversions put env builder = some (.message field? content) := by
  rw [Statement.built, hexec, Option.bind_some, eval_build (by rw [eval, hbuilder])]
  rfl

theorem eval_has_wire {field? : Option WireField} {content : Value Atom}
    (hwire : env wire = some (.value (.message field? content))) :
    eval conversions get env (.call (.source wire) c.accessors.has []) =
      some (.value (.bool (field?.any (·.suffix = c.wireField.suffix)))) := by
  rw [accessors, TypeModel.accessors_eq]
  exact eval_has c.wireField (by rw [eval, hwire])

/-- What was stored is read back. -/
theorem eval_readExpr {y z : Value Atom} (hstandard : env.Standard)
    (hconverts : c.model.Converts conversions put get v y z)
    (hwire : env wire = some (.value (.message (some c.wireField) z))) :
    eval conversions get env (c.readExpr wire) = some (.value v) := by
  have hread : eval conversions get env
      (c.model.fromWireExpr (.call (.source wire) c.accessors.getter []) 0) = some (.value v) := by
    apply hconverts.readsStored env _ 0 hstandard
    rw [accessors, TypeModel.accessors_eq]
    exact eval_getter c.wireField (by rw [eval, hwire])
  rw [readExpr]
  cases c.nullable with
  | false => exact hread
  | true =>
      have hhas : eval conversions get env (.call (.source wire) c.accessors.has []) =
          some (.value (.bool true)) := by
        rw [eval_has_wire hwire]
        simp
      rw [if_pos rfl, eval, hhas]
      exact hread

/-- Where nothing was set, a field that can be absent is read as null. -/
theorem eval_readExpr_null {content : Value Atom} (hstandard : env.Standard)
    (hnullable : c.nullable = true)
    (hwire : env wire = some (.value (.message none content))) :
    eval conversions get env (c.readExpr wire) = some (.value .null) := by
  have hhas : eval conversions get env (.call (.source wire) c.accessors.has []) =
      some (.value (.bool false)) :=
    eval_has_wire hwire
  rw [readExpr, if_pos hnullable, eval, hhas]
  have hnull : eval conversions get env (.source "null") = some (.value .null) := by
    rw [eval, hstandard.null]
  exact hnull

end Carries

/-- A field for which there is a copying fragment has a reading one too, and they are the written
form of a statement and an expression that undo each other. Any value of the field's type is set and
read back, whatever the order in which sets and maps come on either side; a null is not set and
reads back as null. -/
theorem copied_field_reads_back (conversions : Conversions Atom) (put get : Traversal Atom)
    (c : FieldConversion) (builder value wire : String) {copy : Fragment}
    (hbuilder : builder ≠ "") (hcopy : c.toWire builder value = .ok copy) :
    copy = (c.copyStatement builder value).fragment ∧
      c.fromWire wire = .ok (.expression (c.readExpr wire).render) ∧
      ∀ env : Env Atom, env.Standard → env builder = some (.value (.builder none .null)) →
        (∀ v, c.model.Holds v → env value = some (.value v) →
          c.Carries conversions put get builder value wire env (some c.wireField) v) ∧
        (c.nullable = true → env value = some (.value .null) →
          c.Carries conversions put get builder value wire env none .null) := by
  rw [toWire_eq hbuilder] at hcopy
  rw [fromWire_eq]
  split at hcopy
  · cases hcopy
  · rename_i hprimitive
    rw [if_neg hprimitive]
    refine ⟨(Except.ok.inj hcopy).symm, rfl, ?_⟩
    intro env hstandard hfresh
    constructor
    · intro v hholds hvalue
      obtain ⟨y, z, hconverts⟩ :=
        TypeModel.exists_converts conversions put get c.model hholds
      have hexec := exec_copyStatement hstandard hfresh hvalue (TypeModel.ne_null_of_holds hholds)
        hconverts
      refine ⟨z, built_eq hexec (by rw [Env.set, if_pos rfl]), ?_⟩
      intro env' hstandard' hwire
      exact eval_readExpr hstandard' hconverts hwire
    · intro hnullable hvalue
      refine ⟨.null, built_eq (exec_copyStatement_null hnullable hvalue) hfresh, ?_⟩
      intro env' hstandard' hwire
      exact eval_readExpr_null hstandard' hnullable hwire

def opposite : Conversions Bool :=
  ⟨fun _ a => !a, fun _ a => !a, fun _ => Bool.not_not⟩

def forwards : Traversal Bool :=
  ⟨id, fun _ => .rfl⟩

def backwards : Traversal Bool :=
  ⟨List.reverse, List.reverse_perm⟩

def colors : FieldConversion :=
  ⟨.repeated (.enum "WireColor" "Color") .set, "main_colors", true, "Palette"⟩

example : (colors.copyStatement "builder" "value").fragment.code =
    "if (value != null) \x7b\n" ++
      "    builder.addAllMainColors(value.stream().map(it -> it.toGrpc()).toList());\n\x7d" := by
  decide +kernel

/-- A set of constants is the same set again, although it comes in the opposite order on the way
back. -/
theorem copied_field_reads_back_colors :
    colors.Carries opposite forwards backwards "builder" "value" "wire"
      ((Env.empty.set "builder" (.builder none .null)).set "value"
        (.setOf [.object "Color" false, .object "Color" true]))
      (some ⟨.repeated, "MainColors"⟩)
      (.setOf [.object "Color" false, .object "Color" true]) := by
  obtain ⟨_, _, hcarries⟩ := copied_field_reads_back opposite forwards backwards colors "builder"
    "value" "wire" (by decide) rfl
  have hstandard : ((Env.empty.set "builder" (.builder none .null)).set "value"
      (.setOf [.object "Color" false, .object "Color" true]) : Env Bool).Standard :=
    ⟨rfl, rfl⟩
  refine (hcarries _ hstandard rfl).1 _ ?_ rfl
  refine ⟨_, ?_, rfl⟩
  simp [TypeModel.Holds]

end FieldConversion

end WireMapper
