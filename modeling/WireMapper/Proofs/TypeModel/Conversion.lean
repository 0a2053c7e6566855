import WireMapper.Proofs.Java.Evaluation
import WireMapper.TypeModel.Conversion

/-!
The two conversions of a type model undo each other. Every value of the type becomes a wire value
that a setter accepts, and what the getter of the field then returns becomes the value again. Sets
and maps can come in one order while they are written and in another one while they are read.
-/

namespace WireMapper.TypeModel

open Java Java.Evaluation

variable {Atom : Type}

def arity : TypeModel → Arity
  | repeated .. => .repeated
  | map .. => .map
  | _ => .singular

def wireField (model : TypeModel) (field : String) : WireField :=
  ⟨model.arity, Naming.accessorSuffix field⟩

/-- The accessors of a model are those of the wire field that has its type. -/
theorem accessors_eq (model : TypeModel) (field : String) :
    model.accessors field =
      ⟨(model.wireField field).getter, (model.wireField field).setter,
        (model.wireField field).has⟩ := by
  cases model <;> rfl

/-- A domain collection with the elements of a list. -/
noncomputable def collectionOf (container : RepeatedContainer) (elements : List (Value Atom)) :
    Value Atom :=
  match container with
  | .list | .immutableList => .list elements
  | .set | .sortedSet | .immutableSet => .setOf elements
  | .stream => .stream elements

/-- The domain values of a type. No two entries of a map have one key. -/
def Holds : TypeModel → Value Atom → Prop
  | scalar .., x => ∃ a, x = .scalar a
  | enum _ domainType, x => ∃ a, x = .object domainType a
  | message _ domainType, x => ∃ a, x = .object domainType a
  | repeated element container, x =>
    ∃ elements, (∀ v ∈ elements, element.Holds v) ∧ x = collectionOf container elements
  | map key value, x =>
    ∃ entries, (∀ e ∈ entries, ∃ k v, e = .entry k v ∧ key.Holds k ∧ value.Holds v) ∧
      (∀ e ∈ entries, ∀ e' ∈ entries, e.key? = e'.key? → e = e') ∧ x = .mapOf entries
  | unfolded _ _ inner, x => inner.Holds x

/-- No type has null among its values. -/
theorem ne_null_of_holds {model : TypeModel} {v : Value Atom} (hholds : model.Holds v) :
    v ≠ .null := by
  induction model with
  | repeated element container =>
      obtain ⟨elements, _, rfl⟩ := hholds
      cases container <;> simp [collectionOf, Value.setOf]
  | map key value =>
      obtain ⟨entries, _, _, rfl⟩ := hholds
      simp [Value.mapOf]
  | unfolded wrapperType innerField inner ih => exact ih hholds
  | _ =>
      obtain ⟨a, rfl⟩ := hholds
      simp

/-- The elements of a domain collection as they come when it is traversed. -/
noncomputable def traversed (traversal : Traversal Atom) (container : RepeatedContainer)
    (elements : List (Value Atom)) : List (Value Atom) :=
  match container with
  | .list | .immutableList | .stream => elements
  | .set | .sortedSet | .immutableSet => traversal.ofSet elements

section Traversed

variable (traversal : Traversal Atom) (container : RepeatedContainer) {elements : List (Value Atom)}

theorem mem_traversed {v : Value Atom} :
    v ∈ traversed traversal container elements ↔ v ∈ elements := by
  cases container <;> first | exact Iff.rfl | exact traversal.mem_ofSet

/-- Traversing a collection and collecting it again gives the collection. -/
theorem collectionOf_traversed :
    collectionOf container (traversed traversal container elements) =
      collectionOf container elements := by
  cases container <;>
    first | rfl | exact Value.setOf_eq_iff.mpr fun v => traversal.mem_ofSet

end Traversed

section Evaluation

variable {conversions : Conversions Atom} {traversal : Traversal Atom} {env : Env Atom}
  {e : Expr} {elements : List (Value Atom)} {container : RepeatedContainer}

theorem eval_streamOf_list (h : eval conversions traversal env e = some (.value (.list elements))) :
    eval conversions traversal env (streamOf e) = some (.value (.stream elements)) :=
  eval_method rfl h evalAll_nil

theorem eval_streamOf_set (h : eval conversions traversal env e = some (.value (.set elements))) :
    eval conversions traversal env (streamOf e) =
      some (.value (.stream (traversal.order elements))) :=
  eval_method rfl h evalAll_nil

theorem eval_toList (h : eval conversions traversal env e = some (.value (.stream elements))) :
    eval conversions traversal env (.call e "toList" []) = some (.value (.list elements)) :=
  eval_method rfl h evalAll_nil

/-- The stream of a collection has its elements in the order of traversal. -/
theorem eval_domainStream
    (h : eval conversions traversal env e = some (.value (collectionOf container elements))) :
    eval conversions traversal env (domainStream container e) =
      some (.value (.stream (traversed traversal container elements))) := by
  cases container with
  | list | immutableList => exact eval_streamOf_list h
  | set | sortedSet | immutableSet => exact eval_streamOf_set h
  | stream => exact h

theorem eval_collect {collector : Expr} {f : List (Value Atom) → Option (Value Atom)}
    (h : eval conversions traversal env e = some (.value (.stream elements)))
    (hcollector : eval conversions traversal env collector = some (.collector f)) :
    eval conversions traversal env (.call e "collect" [collector]) =
      (f elements).map .value :=
  eval_method rfl h (evalAll_single hcollector)

/-- A stream is collected into a collection of the kind that is asked for. -/
theorem eval_ofStream (hstandard : env.Standard)
    (h : eval conversions traversal env e = some (.value (.stream elements))) :
    eval conversions traversal env (ofStream container e) =
      some (.value (collectionOf container elements)) := by
  cases container with
  | list | immutableList => exact eval_toList h
  | set =>
      have hcollector : eval conversions traversal env (collector "toSet" []) =
          some (.collector fun elements => some (.setOf elements)) :=
        eval_static rfl evalAll_nil
      exact eval_collect h hcollector
  | sortedSet =>
      have hconstructor : eval conversions traversal env (.source "TreeSet::new") =
          some .newTreeSet := by
        rw [eval, hstandard.newTreeSet]
      have hcollector :
          eval conversions traversal env (collector "toCollection" [.source "TreeSet::new"]) =
            some (.collector fun elements => some (.setOf elements)) :=
        eval_static rfl (evalAll_single hconstructor)
      exact eval_collect h hcollector
  | immutableSet =>
      have hcollector : eval conversions traversal env (collector "toUnmodifiableSet" []) =
          some (.collector fun elements => some (.setOf elements)) :=
        eval_static rfl evalAll_nil
      exact eval_collect h hcollector
  | stream => exact h

theorem eval_construct {type : String} {collection : Value Atom}
    (htype : type = "HashSet<>" ∨ type = "TreeSet<>")
    (h : eval conversions traversal env e = some (.value collection))
    (helements : elements? traversal collection = some elements) :
    eval conversions traversal env (.construct type [e]) = some (.value (.setOf elements)) := by
  rw [eval, evalAll_single h]
  simp [construct, htype, helements]

theorem eval_ofList (h : eval conversions traversal env e = some (.value (.list elements))) :
    eval conversions traversal env (ofList container e) =
      some (.value (collectionOf container elements)) := by
  cases container with
  | list => exact h
  | set => exact eval_construct (Or.inl rfl) h rfl
  | sortedSet => exact eval_construct (Or.inr rfl) h rfl
  | immutableList | immutableSet => exact eval_static rfl (evalAll_single h)
  | stream => exact eval_streamOf_list h

/-- A collection other than a stream is copied into one of its own kind. -/
theorem eval_ofList_collection (hstream : container ≠ .stream)
    (h : eval conversions traversal env e = some (.value (collectionOf container elements))) :
    eval conversions traversal env (ofList container e) =
      some (.value (collectionOf container (traversed traversal container elements))) := by
  cases container with
  | list | immutableList => exact eval_ofList h
  | set => exact eval_construct (Or.inl rfl) h rfl
  | sortedSet => exact eval_construct (Or.inr rfl) h rfl
  | immutableSet => exact eval_static rfl (evalAll_single h)
  | stream => exact absurd rfl hstream

/-- What a lambda returns for a value. -/
noncomputable def applied (conversions : Conversions Atom) (traversal : Traversal Atom)
    (env : Env Atom) (parameter : String) (body : Expr) (v : Value Atom) : Option (Value Atom) :=
  (eval conversions traversal (env.set parameter v) body).bind Meaning.value?

theorem applied_eq {parameter : String} {body : Expr} {v w : Value Atom}
    (h : eval conversions traversal (env.set parameter v) body = some (.value w)) :
    applied conversions traversal env parameter body v = some w := by
  rw [applied, h]
  rfl

theorem eval_lambda (parameter : String) (body : Expr) :
    eval conversions traversal env (.lambda parameter body) =
      some (.function (applied conversions traversal env parameter body)) := by
  rw [eval]
  rfl

theorem eval_parameter (parameter : String) (v : Value Atom) :
    eval conversions traversal (env.set parameter v) (.source parameter) = some (.value v) := by
  rw [eval, Env.set, if_pos rfl]

/-- A lambda is applied to the elements of a stream one by one. -/
theorem eval_map {parameter : String} {body : Expr} {f : Value Atom → Value Atom}
    (h : eval conversions traversal env e = some (.value (.stream elements)))
    (hbody : ∀ v ∈ elements, applied conversions traversal env parameter body v = some (f v)) :
    eval conversions traversal env (.call e "map" [.lambda parameter body]) =
      some (.value (.stream (elements.map f))) := by
  rw [eval_method rfl h (evalAll_single (eval_lambda parameter body))]
  simp only [callMethod, mapM_eq_some_map hbody]
  rfl

/-- No lambda hides a name that is not a variable. -/
theorem standard_set (hstandard : env.Standard) (depth : Nat) (v : Value Atom) :
    (env.set (lambdaParameter depth) v).Standard := by
  have hname : ∀ name : String, name.toList.head? ≠ some 'i' → name ≠ lambdaParameter depth := by
    intro name hhead hname
    apply hhead
    rw [hname, lambdaParameter]
    split <;> simp
  constructor
  · rw [Env.set, if_neg (hname "null" (by simp))]
    exact hstandard.null
  · rw [Env.set, if_neg (hname "TreeSet::new" (by simp))]
    exact hstandard.newTreeSet

end Evaluation

end WireMapper.TypeModel
