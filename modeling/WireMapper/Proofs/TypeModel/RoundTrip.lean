import Mathlib.Data.Set.Function
import WireMapper.Proofs.TypeModel.Conversion

/-!
Every domain value survives the way to the wire and back. The induction is over the type model; what
it carries is that the converted value is accepted by a setter, and that both the converted value
and what the setter stored for it read back as the domain value.
-/

namespace WireMapper.TypeModel

open Java Java.Evaluation

variable {Atom : Type}

/-- A domain value is converted to a wire value, wherever it stands. -/
def Sends (conversions : Conversions Atom) (traversal : Traversal Atom) (model : TypeModel)
    (x y : Value Atom) : Prop :=
  ∀ (env : Env Atom) (e : Expr) (depth : Nat), env.Standard →
    eval conversions traversal env e = some (.value x) →
      eval conversions traversal env (model.toWireExpr e depth) = some (.value y)

/-- A wire value is converted to a domain value, wherever it stands. -/
def Reads (conversions : Conversions Atom) (traversal : Traversal Atom) (model : TypeModel)
    (y x : Value Atom) : Prop :=
  ∀ (env : Env Atom) (e : Expr) (depth : Nat), env.Standard →
    eval conversions traversal env e = some (.value y) →
      eval conversions traversal env (model.fromWireExpr e depth) = some (.value x)

/-- A domain value `x` goes to the wire as `y`, of which a setter stores `z`, and comes back. -/
structure Converts (conversions : Conversions Atom) (put get : Traversal Atom) (model : TypeModel)
    (x y z : Value Atom) : Prop where
  sends : Sends conversions put model x y
  reads : Reads conversions get model y x
  isWire : y.isWire = true
  stored : stored? put model.arity y = some z
  readsStored : Reads conversions get model z x

variable {conversions : Conversions Atom} {traversal put get : Traversal Atom} {model : TypeModel}
  {x y : Value Atom}

/-- What is read back determines where it came from. -/
theorem Reads.unique {x' : Value Atom} (hreads : Reads conversions traversal model y x)
    (hreads' : Reads conversions traversal model y x') : x = x' := by
  have hstandard := standard_set Env.standard_empty 0 y
  have hparameter : eval conversions traversal (Env.empty.set (lambdaParameter 0) y)
      (.source (lambdaParameter 0)) = some (.value y) :=
    eval_parameter _ y
  have hx := hreads _ _ 0 hstandard hparameter
  have hx' := hreads' _ _ 0 hstandard hparameter
  rw [hx] at hx'
  simpa using hx'

/-- A value that a setter stores as it is. -/
theorem Converts.of_stored (hsends : Sends conversions put model x y)
    (hreads : Reads conversions get model y x) (hwire : y.isWire = true)
    (hstored : stored? put model.arity y = some y) :
    Converts conversions put get model x y y :=
  ⟨hsends, hreads, hwire, hstored, hreads⟩

theorem converts_scalar (s : Scalar) (boxed : Bool) (a : Atom) :
    Converts conversions put get (scalar s boxed) (.scalar a) (.scalar a) (.scalar a) := by
  apply Converts.of_stored
  · intro env e depth _ he
    exact he
  · intro env e depth _ he
    exact he
  · rfl
  · rfl

/-- An object that is converted by its `toGrpc` is read back by its `fromGrpc`. -/
theorem converts_object {type : String} (a : Atom)
    (hto : ∀ e depth, model.toWireExpr e depth = .call e "toGrpc" [])
    (hfrom : ∀ e depth, model.fromWireExpr e depth = .call (.source type) "fromGrpc" [e])
    (harity : model.arity = .singular) :
    Converts conversions put get model (.object type a) (.wire (conversions.toGrpc type a))
      (.wire (conversions.toGrpc type a)) := by
  apply Converts.of_stored
  · intro env e depth _ he
    rw [hto]
    exact eval_method rfl he evalAll_nil
  · intro env e depth _ he
    rw [hfrom, eval_static rfl (evalAll_single he)]
    simp only [callStatic, conversions.fromGrpc_toGrpc]
  · rfl
  · rw [harity]
    rfl

theorem isWire_collectionOf {container : RepeatedContainer} {elements : List (Value Atom)}
    (hstream : container ≠ .stream) (h : ∀ v ∈ elements, v.isWire = true) :
    (collectionOf container elements).isWire = true := by
  have hdistinct : ∀ v ∈ Value.distinct elements, v.isWire = true :=
    fun v hv => h v (Value.mem_distinct.mp hv)
  cases container with
  | list | immutableList => exact Value.allWire_iff.mpr h
  | set | sortedSet | immutableSet => exact Value.allWire_iff.mpr hdistinct
  | stream => exact absurd rfl hstream

theorem stored_repeated {collection : Value Atom} {elements : List (Value Atom)}
    (hwire : collection.isWire = true) (helements : elements? put collection = some elements) :
    stored? put .repeated collection = some (.list elements) := by
  rw [stored?, if_pos hwire]
  simp [helements]

section Elements

variable {element : TypeModel} {container : RepeatedContainer} {elements : List (Value Atom)}

/-- Only a stream has to be collected, since its elements need no conversion. -/
theorem toWireExpr_same_elements (hidentity : element.isIdentity = true) (e : Expr) (depth : Nat) :
    (repeated element container).toWireExpr e depth =
      if container = .stream then .call e "toList" [] else e := by
  cases container <;> simp [toWireExpr, hidentity]

theorem toWireExpr_elements (hidentity : element.isIdentity = false) (e : Expr) (depth : Nat) :
    (repeated element container).toWireExpr e depth =
      .call (.call (domainStream container e) "map" [.lambda (lambdaParameter depth)
        (element.toWireExpr (.source (lambdaParameter depth)) (depth + 1))]) "toList" [] := by
  cases container <;> simp [toWireExpr, hidentity]

theorem fromWireExpr_same_elements (hidentity : element.isIdentity = true) (e : Expr)
    (depth : Nat) : (repeated element container).fromWireExpr e depth = ofList container e := by
  rw [fromWireExpr, if_pos hidentity]

theorem fromWireExpr_elements (hidentity : element.isIdentity = false) (e : Expr) (depth : Nat) :
    (repeated element container).fromWireExpr e depth =
      ofStream container (.call (streamOf e) "map" [.lambda (lambdaParameter depth)
        (element.fromWireExpr (.source (lambdaParameter depth)) (depth + 1))]) := by
  rw [fromWireExpr, if_neg (by simp [hidentity])]

/-- Elements that are the same on both sides are not touched. -/
theorem converts_same_elements (hidentity : element.isIdentity = true)
    (hwire : ∀ v ∈ elements, v.isWire = true) :
    ∃ y z, Converts conversions put get (repeated element container)
      (collectionOf container elements) y z := by
  have hreadsList : ∀ l : List (Value Atom),
      Reads conversions get (repeated element container) (.list l) (collectionOf container l) := by
    intro l env e depth _ he
    rw [fromWireExpr_same_elements hidentity]
    exact eval_ofList he
  by_cases hstream : container = .stream
  · refine ⟨.list elements, .list elements, ?_⟩
    apply Converts.of_stored
    · intro env e depth _ he
      rw [toWireExpr_same_elements hidentity, if_pos hstream]
      subst hstream
      exact eval_toList he
    · exact hreadsList elements
    · exact Value.allWire_iff.mpr hwire
    · exact stored_repeated (Value.allWire_iff.mpr hwire) rfl
  · refine ⟨collectionOf container elements, .list (traversed put container elements), ?_⟩
    have hcollection := isWire_collectionOf hstream hwire
    constructor
    · intro env e depth _ he
      rw [toWireExpr_same_elements hidentity, if_neg hstream]
      exact he
    · intro env e depth _ he
      rw [fromWireExpr_same_elements hidentity, eval_ofList_collection hstream he,
        collectionOf_traversed]
    · exact hcollection
    · apply stored_repeated hcollection
      cases container <;> first | rfl | exact absurd rfl hstream
    · have hreads := hreadsList (traversed put container elements)
      rw [collectionOf_traversed] at hreads
      exact hreads

/-- A function that tells the elements of a list apart can be undone on them. -/
theorem exists_back {f : Value Atom → Value Atom}
    (hf : ∀ v ∈ elements, ∀ v' ∈ elements, f v = f v' → v = v') :
    ∃ g : Value Atom → Value Atom,
      (∀ v ∈ elements, g (f v) = v) ∧ (elements.map f).map g = elements := by
  have hinjective : Set.InjOn f {v | v ∈ elements} := fun v hv v' hv' => hf v hv v' hv'
  have : Nonempty (Value Atom) := ⟨.null⟩
  have hg : ∀ v ∈ elements, Function.invFunOn f {v | v ∈ elements} (f v) = v :=
    hinjective.leftInvOn_invFunOn
  refine ⟨Function.invFunOn f {v | v ∈ elements}, hg, ?_⟩
  rw [List.map_map]
  conv_rhs => rw [← List.map_id elements]
  exact List.map_congr_left hg

/-- A wire element comes from one domain element only, which is what it reads back as. -/
theorem reads_elements {f z : Value Atom → Value Atom} (hidentity : element.isIdentity = false)
    (hf : ∀ v ∈ elements, Converts conversions put get element v (f v) (z v)) :
    Reads conversions get (repeated element container) (.list (elements.map f))
      (collectionOf container elements) := by
  intro env e depth hstandard he
  have hinjective : ∀ v ∈ elements, ∀ v' ∈ elements, f v = f v' → v = v' := by
    intro v hv v' hv' hsame
    have hreads := (hf v hv).reads
    rw [hsame] at hreads
    exact hreads.unique (hf v' hv').reads
  obtain ⟨g, hg, hback⟩ := exists_back hinjective
  have hbody : ∀ w ∈ elements.map f, applied conversions get env (lambdaParameter depth)
      (element.fromWireExpr (.source (lambdaParameter depth)) (depth + 1)) w = some (g w) := by
    intro w hw
    obtain ⟨v, hv, rfl⟩ := List.mem_map.mp hw
    rw [hg v hv]
    apply applied_eq
    exact (hf v hv).reads _ _ _ (standard_set hstandard depth _) (eval_parameter _ _)
  have hmap := eval_map (eval_streamOf_list he) hbody
  rw [hback] at hmap
  rw [fromWireExpr_elements hidentity]
  exact eval_ofStream hstandard hmap

/-- A collection comes back if each of its elements does. -/
theorem converts_elements (hidentity : element.isIdentity = false)
    (helements : ∀ v ∈ elements, ∃ y z, Converts conversions put get element v y z) :
    ∃ y z, Converts conversions put get (repeated element container)
      (collectionOf container elements) y z := by
  choose! f z hf using helements
  have hconverts : ∀ v ∈ traversed put container elements,
      Converts conversions put get element v (f v) (z v) :=
    fun v hv => hf v ((mem_traversed put container).mp hv)
  have hwire : (Value.list ((traversed put container elements).map f)).isWire = true := by
    refine Value.allWire_iff.mpr fun w hw => ?_
    obtain ⟨v, hv, rfl⟩ := List.mem_map.mp hw
    exact (hconverts v hv).isWire
  refine ⟨.list ((traversed put container elements).map f),
    .list ((traversed put container elements).map f), ?_⟩
  apply Converts.of_stored
  · intro env e depth hstandard he
    rw [toWireExpr_elements hidentity]
    refine eval_toList (eval_map (eval_domainStream he) fun v hv => applied_eq ?_)
    exact (hconverts v hv).sends _ _ _ (standard_set hstandard depth v) (eval_parameter _ v)
  · rw [← collectionOf_traversed put]
    exact reads_elements hidentity hconverts
  · exact hwire
  · exact stored_repeated hwire rfl

end Elements

section Entries

variable {key value : TypeModel} {entries : List (Value Atom)}

/-- The entries of a map are collected by what two lambdas make of each. -/
theorem eval_mapEntries {env : Env Atom} {e keyBody valueBody : Expr} {parameter : String}
    {f : Value Atom → Value Atom}
    (he : eval conversions traversal env e = some (.value (.mapOf entries)))
    (hentries : ∀ x ∈ entries, ∃ a b,
      applied conversions traversal env parameter keyBody x = some a ∧
        applied conversions traversal env parameter valueBody x = some b ∧ f x = .entry a b)
    (hkeys : ∀ x ∈ entries, ∀ x' ∈ entries, (f x).key? = (f x').key? → x = x') :
    eval conversions traversal env
      (mapEntries e (.lambda parameter keyBody) (.lambda parameter valueBody)) =
        some (.value (.mapOf (entries.map f))) := by
  have hmem : ∀ x, x ∈ traversal.ofSet entries ↔ x ∈ entries := fun x => traversal.mem_ofSet
  have hset : eval conversions traversal env (.call e "entrySet" []) =
      some (.value (.set (Value.distinct entries))) :=
    eval_method rfl he evalAll_nil
  have hlambdas : evalAll conversions traversal env
      [.lambda parameter keyBody, .lambda parameter valueBody] =
        some [.function (applied conversions traversal env parameter keyBody),
          .function (applied conversions traversal env parameter valueBody)] := by
    rw [evalAll, eval_lambda, evalAll_single (eval_lambda parameter valueBody)]
    rfl
  have hcollected := collectMap_eq_some (f := f) (traversal.nodup_ofSet entries)
    (fun x hx => hentries x ((hmem x).mp hx))
    (fun x hx x' hx' => hkeys x ((hmem x).mp hx) x' ((hmem x').mp hx'))
  have hsame : Value.mapOf ((traversal.ofSet entries).map f) = .mapOf (entries.map f) := by
    apply Value.mapOf_eq_iff.mpr
    intro v
    simp [hmem]
  rw [mapEntries, eval_collect (eval_streamOf_set hset) (eval_static rfl hlambdas)]
  exact (congrArg (Option.map Meaning.value) hcollected).trans (by rw [hsame]; rfl)

theorem toWireExpr_entries (hidentity : (key.isIdentity && value.isIdentity) = false) (e : Expr)
    (depth : Nat) : (map key value).toWireExpr e depth = mapEntries e
      (.lambda (lambdaParameter depth)
        (key.toWireExpr (.call (.source (lambdaParameter depth)) "getKey" []) (depth + 1)))
      (.lambda (lambdaParameter depth)
        (value.toWireExpr (.call (.source (lambdaParameter depth)) "getValue" [])
          (depth + 1))) := by
  rw [toWireExpr, if_neg (by simp [hidentity])]

theorem fromWireExpr_entries (hidentity : (key.isIdentity && value.isIdentity) = false) (e : Expr)
    (depth : Nat) : (map key value).fromWireExpr e depth = mapEntries e
      (.lambda (lambdaParameter depth)
        (key.fromWireExpr (.call (.source (lambdaParameter depth)) "getKey" []) (depth + 1)))
      (.lambda (lambdaParameter depth)
        (value.fromWireExpr (.call (.source (lambdaParameter depth)) "getValue" [])
          (depth + 1))) := by
  rw [fromWireExpr, if_neg (by simp [hidentity])]

theorem stored_map (hwire : (Value.mapOf entries).isWire = true) :
    stored? put .map (Value.mapOf entries) = some (.mapOf entries) := by
  unfold stored?
  rw [if_pos hwire]
  rfl

theorem isWire_mapOf (h : ∀ x ∈ entries, x.isWire = true) :
    (Value.mapOf entries).isWire = true :=
  Value.allWire_iff.mpr fun x hx => h x (Value.mem_distinct.mp hx)

/-- A map whose keys and values are the same on both sides is not touched. -/
theorem converts_same_entries (hidentity : (key.isIdentity && value.isIdentity) = true)
    (hwire : ∀ x ∈ entries, x.isWire = true) :
    Converts conversions put get (map key value) (.mapOf entries) (.mapOf entries)
      (.mapOf entries) := by
  apply Converts.of_stored
  · intro env e depth _ he
    rw [toWireExpr, if_pos hidentity]
    exact he
  · intro env e depth _ he
    rw [fromWireExpr, if_pos hidentity]
    exact he
  · exact isWire_mapOf hwire
  · exact stored_map (isWire_mapOf hwire)

/-- An entry is converted by its key and by its value. -/
inductive EntryConverts (conversions : Conversions Atom) (put get : Traversal Atom)
    (key value : TypeModel) : Value Atom → Value Atom → Prop where
  | intro {k v k' v' z z' : Value Atom} (hkey : Converts conversions put get key k k' z)
      (hvalue : Converts conversions put get value v v' z') :
      EntryConverts conversions put get key value (.entry k v) (.entry k' v')

namespace EntryConverts

variable {x' y' : Value Atom} {env : Env Atom}

theorem eval_getKey {e : Expr} (h : eval conversions traversal env e = some (.value (.entry x y))) :
    eval conversions traversal env (.call e "getKey" []) = some (.value x) :=
  eval_method rfl h evalAll_nil

theorem eval_getValue {e : Expr}
    (h : eval conversions traversal env e = some (.value (.entry x y))) :
    eval conversions traversal env (.call e "getValue" []) = some (.value y) :=
  eval_method rfl h evalAll_nil

theorem sends (h : EntryConverts conversions put get key value x y) (hstandard : env.Standard)
    (depth : Nat) :
    ∃ a b,
      applied conversions put env (lambdaParameter depth)
        (key.toWireExpr (.call (.source (lambdaParameter depth)) "getKey" []) (depth + 1)) x =
          some a ∧
      applied conversions put env (lambdaParameter depth)
        (value.toWireExpr (.call (.source (lambdaParameter depth)) "getValue" []) (depth + 1)) x =
          some b ∧ y = .entry a b := by
  have hinner := standard_set hstandard depth x
  have hentry : eval conversions put (env.set (lambdaParameter depth) x)
      (.source (lambdaParameter depth)) = some (.value x) :=
    eval_parameter _ x
  obtain ⟨hkey, hvalue⟩ := h
  refine ⟨_, _, applied_eq ?_, applied_eq ?_, rfl⟩
  · exact hkey.sends _ _ _ hinner (eval_getKey hentry)
  · exact hvalue.sends _ _ _ hinner (eval_getValue hentry)

theorem reads (h : EntryConverts conversions put get key value x y) (hstandard : env.Standard)
    (depth : Nat) :
    ∃ a b,
      applied conversions get env (lambdaParameter depth)
        (key.fromWireExpr (.call (.source (lambdaParameter depth)) "getKey" []) (depth + 1)) y =
          some a ∧
      applied conversions get env (lambdaParameter depth)
        (value.fromWireExpr (.call (.source (lambdaParameter depth)) "getValue" []) (depth + 1)) y =
          some b ∧ x = .entry a b := by
  have hinner := standard_set hstandard depth y
  have hentry : eval conversions get (env.set (lambdaParameter depth) y)
      (.source (lambdaParameter depth)) = some (.value y) :=
    eval_parameter _ y
  obtain ⟨hkey, hvalue⟩ := h
  refine ⟨_, _, applied_eq ?_, applied_eq ?_, rfl⟩
  · exact hkey.reads _ _ _ hinner (eval_getKey hentry)
  · exact hvalue.reads _ _ _ hinner (eval_getValue hentry)

theorem isWire (h : EntryConverts conversions put get key value x y) : y.isWire = true := by
  obtain ⟨hkey, hvalue⟩ := h
  rw [Value.isWire, hkey.isWire, hvalue.isWire]
  rfl

/-- Keys that are one key on the wire are one key in the domain, since they read back. -/
theorem key_eq (h : EntryConverts conversions put get key value x y)
    (h' : EntryConverts conversions put get key value x' y') (hsame : y.key? = y'.key?) :
    x.key? = x'.key? := by
  obtain ⟨hkey, _⟩ := h
  obtain ⟨hkey', _⟩ := h'
  simp only [Value.key?, Option.some.injEq] at hsame
  have hreads := hkey.reads
  rw [hsame] at hreads
  rw [Value.key?, Value.key?, hreads.unique hkey'.reads]

end EntryConverts

/-- A map comes back if each of its entries does and no two of them share a key. -/
theorem converts_entries (hidentity : (key.isIdentity && value.isIdentity) = false)
    (hkeys : ∀ x ∈ entries, ∀ x' ∈ entries, x.key? = x'.key? → x = x')
    (hentries : ∀ x ∈ entries, ∃ y, EntryConverts conversions put get key value x y) :
    ∃ y, Converts conversions put get (map key value) (.mapOf entries) y y := by
  choose! f hf using hentries
  have hfkeys : ∀ x ∈ entries, ∀ x' ∈ entries, (f x).key? = (f x').key? → x = x' :=
    fun x hx x' hx' hsame => hkeys x hx x' hx' ((hf x hx).key_eq (hf x' hx') hsame)
  obtain ⟨g, hg, hback⟩ := exists_back fun x hx x' hx' hsame =>
    hfkeys x hx x' hx' (congrArg Value.key? hsame)
  have hgf : ∀ y ∈ entries.map f, EntryConverts conversions put get key value (g y) y := by
    intro y hy
    obtain ⟨x, hx, rfl⟩ := List.mem_map.mp hy
    rw [hg x hx]
    exact hf x hx
  have hgkeys : ∀ y ∈ entries.map f, ∀ y' ∈ entries.map f,
      (g y).key? = (g y').key? → y = y' := by
    intro y hy y' hy' hsame
    obtain ⟨x, hx, rfl⟩ := List.mem_map.mp hy
    obtain ⟨x', hx', rfl⟩ := List.mem_map.mp hy'
    rw [hg x hx, hg x' hx'] at hsame
    rw [hkeys x hx x' hx' hsame]
  have hwire := isWire_mapOf fun y hy => (hgf y hy).isWire
  refine ⟨.mapOf (entries.map f), ?_⟩
  apply Converts.of_stored
  · intro env e depth hstandard he
    rw [toWireExpr_entries hidentity]
    exact eval_mapEntries he (fun x hx => (hf x hx).sends hstandard depth) hfkeys
  · intro env e depth hstandard he
    rw [fromWireExpr_entries hidentity]
    have hmap := eval_mapEntries he (fun y hy => (hgf y hy).reads hstandard depth) hgkeys
    rw [hback] at hmap
    exact hmap
  · exact hwire
  · exact stored_map hwire

end Entries

/-- A wrapper is built around what its setter stored, and opened again by its getter. -/
theorem converts_wrapped {inner : TypeModel} {z : Value Atom} (wrapperType innerField : String)
    (hinner : Converts conversions put get inner x y z) :
    Converts conversions put get (unfolded wrapperType innerField inner) x
      (.message (some (inner.wireField innerField)) z)
      (.message (some (inner.wireField innerField)) z) := by
  apply Converts.of_stored
  · intro env e depth hstandard he
    rw [toWireExpr, accessors_eq]
    apply eval_build
    exact eval_setter _ (eval_newBuilder wrapperType) (hinner.sends _ _ depth hstandard he)
      hinner.stored
  · intro env e depth hstandard he
    rw [fromWireExpr, accessors_eq]
    exact hinner.readsStored _ _ depth hstandard (eval_getter _ he)
  · rfl
  · rfl

theorem isWire_of_holds (hidentity : model.isIdentity = true) (hholds : model.Holds x) :
    x.isWire = true := by
  cases model with
  | scalar s boxed =>
      obtain ⟨a, rfl⟩ := hholds
      rfl
  | _ => simp [isIdentity] at hidentity

/-- Whatever the traversals, a value of the type goes to the wire and comes back. -/
theorem exists_converts (conversions : Conversions Atom) (put get : Traversal Atom)
    (model : TypeModel) {x : Value Atom} (hholds : model.Holds x) :
    ∃ y z, Converts conversions put get model x y z := by
  induction model generalizing x with
  | scalar s boxed =>
      obtain ⟨a, rfl⟩ := hholds
      exact ⟨_, _, converts_scalar s boxed a⟩
  | enum wireType domainType =>
      obtain ⟨a, rfl⟩ := hholds
      exact ⟨_, _, converts_object a (fun _ _ => rfl) (fun _ _ => rfl) rfl⟩
  | message wireType domainType =>
      obtain ⟨a, rfl⟩ := hholds
      exact ⟨_, _, converts_object a (fun _ _ => rfl) (fun _ _ => rfl) rfl⟩
  | repeated element container ih =>
      obtain ⟨elements, helements, rfl⟩ := hholds
      cases hidentity : element.isIdentity with
      | true =>
          exact converts_same_elements hidentity
            fun v hv => isWire_of_holds hidentity (helements v hv)
      | false => exact converts_elements hidentity fun v hv => ih (helements v hv)
  | map key value ihkey ihvalue =>
      obtain ⟨entries, hentries, hkeys, rfl⟩ := hholds
      cases hidentity : key.isIdentity && value.isIdentity with
      | true =>
          refine ⟨_, _, converts_same_entries hidentity fun x hx => ?_⟩
          obtain ⟨k, v, rfl, hk, hv⟩ := hentries x hx
          obtain ⟨hkey, hvalue⟩ := (Bool.and_eq_true _ _).mp hidentity
          rw [Value.isWire, isWire_of_holds hkey hk, isWire_of_holds hvalue hv]
          rfl
      | false =>
          have hconverted : ∀ x ∈ entries,
              ∃ y, EntryConverts conversions put get key value x y := by
            intro x hx
            obtain ⟨k, v, rfl, hk, hv⟩ := hentries x hx
            obtain ⟨_, _, hkey⟩ := ihkey hk
            obtain ⟨_, _, hvalue⟩ := ihvalue hv
            exact ⟨_, .intro hkey hvalue⟩
          obtain ⟨y, hy⟩ := converts_entries hidentity hkeys hconverted
          exact ⟨y, y, hy⟩
  | unfolded wrapperType innerField inner ih =>
      obtain ⟨y, z, hinner⟩ := ih hholds
      exact ⟨_, _, converts_wrapped wrapperType innerField hinner⟩

end WireMapper.TypeModel
