import Mathlib.Data.Finset.Dedup
import WireMapper.Java.Expr

/-!
What conversions compute. Scalars and the content of enums and messages are atoms; collections are
their elements, with sets and maps in a form that does not depend on how they were made; a wire
message is a record that holds one field once it was set. A call that its receiver does not have, or
that throws, has no value.
-/

namespace WireMapper.Java.Evaluation

/-- How often a field can occur, which decides how its accessors are named. -/
inductive Arity where
  | singular
  | repeated
  | map
deriving DecidableEq

/-- A field of a wire class, by what its accessors say about it. -/
structure WireField where
  arity : Arity
  suffix : String
deriving DecidableEq

namespace WireField

def getter (field : WireField) : String :=
  match field.arity with
  | .singular => "get" ++ field.suffix
  | .repeated => "get" ++ field.suffix ++ "List"
  | .map => "get" ++ field.suffix ++ "Map"

def setter (field : WireField) : String :=
  match field.arity with
  | .singular => "set" ++ field.suffix
  | .repeated => "addAll" ++ field.suffix
  | .map => "putAll" ++ field.suffix

def has (field : WireField) : String :=
  "has" ++ field.suffix

/-- What follows a word at the start of a method's name. -/
def after? (word method : String) : Option String :=
  if word.toList.isPrefixOf method.toList then
    some (String.ofList (method.toList.drop word.toList.length))
  else
    none

/-- The field that a setter sets. -/
def ofSetter? (method : String) : Option WireField :=
  ((after? "set" method).map (⟨.singular, ·⟩)).or
    (((after? "addAll" method).map (⟨.repeated, ·⟩)).or ((after? "putAll" method).map (⟨.map, ·⟩)))

end WireField

/-- A Java value, as far as conversions can tell values apart. -/
inductive Value (Atom : Type) where
  | null
  | bool (b : Bool)
  | scalar (a : Atom)
  /-- A domain object of an enum or message type. -/
  | object (type : String) (a : Atom)
  /-- What a domain object of an enum or message type is on the wire. -/
  | wire (a : Atom)
  | list (elements : List (Value Atom))
  | stream (elements : List (Value Atom))
  | set (elements : List (Value Atom))
  | entry (key value : Value Atom)
  | map (entries : List (Value Atom))
  /-- A builder; until a field is set its content is null. -/
  | builder (field? : Option WireField) (content : Value Atom)
  | message (field? : Option WireField) (content : Value Atom)

variable {Atom : Type}

namespace Value

open Classical in
noncomputable def distinct (elements : List (Value Atom)) : List (Value Atom) :=
  elements.toFinset.toList

noncomputable def setOf (elements : List (Value Atom)) : Value Atom :=
  .set (distinct elements)

noncomputable def mapOf (entries : List (Value Atom)) : Value Atom :=
  .map (distinct entries)

def key? : Value Atom → Option (Value Atom)
  | entry key _ => some key
  | _ => none

mutual

def isWire : Value Atom → Bool
  | scalar _ | wire _ | message _ _ => true
  | list elements | set elements | map elements => allWire elements
  | entry key value => key.isWire && value.isWire
  | _ => false

def allWire : List (Value Atom) → Bool
  | [] => true
  | v :: vs => v.isWire && allWire vs

end

end Value

/-- The conversions that enums and messages have by themselves. For each type, what goes to the wire
comes back. -/
structure Conversions (Atom : Type) where
  toGrpc : String → Atom → Atom
  fromGrpc : String → Atom → Atom
  fromGrpc_toGrpc : ∀ type a, fromGrpc type (toGrpc type a) = a

/-- The order in which the elements of sets and maps come, which may be any. -/
structure Traversal (Atom : Type) where
  order : List (Value Atom) → List (Value Atom)
  perm : ∀ elements, (order elements).Perm elements

/-- What an expression stands for: a value, or something that only calls can take. -/
inductive Meaning (Atom : Type) where
  | value (v : Value Atom)
  | function (f : Value Atom → Option (Value Atom))
  | collector (f : List (Value Atom) → Option (Value Atom))
  /-- The constructor of sorted sets. -/
  | newTreeSet

def Meaning.value? : Meaning Atom → Option (Value Atom)
  | value v => some v
  | _ => none

abbrev Env (Atom : Type) := String → Option (Meaning Atom)

namespace Env

def set (env : Env Atom) (name : String) (v : Value Atom) : Env Atom :=
  fun text => if text = name then some (.value v) else env text

/-- The names that are no variables stand for what they do in Java. -/
structure Standard (env : Env Atom) : Prop where
  null : env "null" = some (.value .null)
  newTreeSet : env "TreeSet::new" = some .newTreeSet

def empty : Env Atom
  | "null" => some (.value .null)
  | "TreeSet::new" => some .newTreeSet
  | _ => none

theorem standard_empty : (empty : Env Atom).Standard :=
  ⟨rfl, rfl⟩

end Env

section Calls

variable (conversions : Conversions Atom) (traversal : Traversal Atom)

def elements? : Value Atom → Option (List (Value Atom))
  | .list elements => some elements
  | .set elements => some (traversal.order elements)
  | _ => none

/-- What a setter stores for its argument: a value that is no collection, the elements of one, or a
map. Nothing but wire values is accepted. -/
def stored? (arity : Arity) (argument : Value Atom) : Option (Value Atom) :=
  if argument.isWire then
    match arity, argument with
    | .singular, .scalar a => some (.scalar a)
    | .singular, .wire a => some (.wire a)
    | .singular, .message inner content => some (.message inner content)
    | .repeated, collection => (elements? traversal collection).map .list
    | .map, .map entries => some (.map entries)
    | _, _ => none
  else
    none

/-- Reads a message by a getter, or asks whether a field was set. -/
def readMessage (field? : Option WireField) (content : Value Atom) (method : String) :
    Option (Value Atom) :=
  if field?.any (·.getter = method) then some content
  else (WireField.after? "has" method).map fun suffix => .bool (field?.any (·.suffix = suffix))

open Classical in
/-- The entries that two functions make of the elements of a stream. Two entries with one key throw.
-/
noncomputable def collectMap (key value : Value Atom → Option (Value Atom))
    (elements : List (Value Atom)) : Option (Value Atom) := do
  let entries ← elements.mapM fun e => do return .entry (← key e) (← value e)
  if (entries.map Value.key?).Nodup then some (.mapOf entries) else none

def isStatic (method : String) : Bool :=
  method ∈ ["fromGrpc", "newBuilder", "copyOf", "toMap", "toSet", "toUnmodifiableSet",
    "toCollection"]

noncomputable def callStatic (type method : String) (arguments : List (Meaning Atom)) :
    Option (Meaning Atom) :=
  match type, method, arguments with
  | type, "fromGrpc", [.value (.wire a)] =>
    some (.value (.object type (conversions.fromGrpc type a)))
  | _, "newBuilder", [] => some (.value (.builder none .null))
  | "List", "copyOf", [.value collection] =>
    (elements? traversal collection).map fun elements => .value (.list elements)
  | "Set", "copyOf", [.value collection] =>
    (elements? traversal collection).map fun elements => .value (.setOf elements)
  | "Collectors", "toMap", [.function key, .function value] =>
    some (.collector (collectMap key value))
  | "Collectors", "toSet", [] => some (.collector fun elements => some (.setOf elements))
  | "Collectors", "toUnmodifiableSet", [] =>
    some (.collector fun elements => some (.setOf elements))
  | "Collectors", "toCollection", [.newTreeSet] =>
    some (.collector fun elements => some (.setOf elements))
  | _, _, _ => none

def callMethod (receiver : Value Atom) (method : String) (arguments : List (Meaning Atom)) :
    Option (Meaning Atom) :=
  match receiver, method, arguments with
  | .list elements, "stream", [] => some (.value (.stream elements))
  | .set elements, "stream", [] => some (.value (.stream (traversal.order elements)))
  | .stream elements, "toList", [] => some (.value (.list elements))
  | .stream elements, "map", [.function f] =>
    (elements.mapM f).map fun results => .value (.stream results)
  | .stream elements, "collect", [.collector f] => (f elements).map .value
  | .map entries, "entrySet", [] => some (.value (.set entries))
  | .entry key _, "getKey", [] => some (.value key)
  | .entry _ value, "getValue", [] => some (.value value)
  | .object type a, "toGrpc", [] => some (.value (.wire (conversions.toGrpc type a)))
  | .builder field? content, "build", [] => some (.value (.message field? content))
  | .builder _ _, method, [.value argument] =>
    (WireField.ofSetter? method).bind fun field =>
      (stored? traversal field.arity argument).map fun content =>
        .value (.builder (some field) content)
  | .message field? content, method, [] => (readMessage field? content method).map .value
  | _, _, _ => none

noncomputable def construct (type : String) (arguments : List (Meaning Atom)) :
    Option (Meaning Atom) :=
  match arguments with
  | [.value collection] =>
    if type = "HashSet<>" ∨ type = "TreeSet<>" then
      (elements? traversal collection).map fun elements => .value (.setOf elements)
    else
      none
  | _ => none

mutual

noncomputable def eval (env : Env Atom) : Expr → Option (Meaning Atom)
  | .source text => env text
  | .call receiver method arguments =>
    (evalAll env arguments).bind fun meanings =>
      if isStatic method then
        match receiver with
        | .source type => callStatic conversions traversal type method meanings
        | _ => none
      else
        (eval env receiver).bind fun meaning =>
          meaning.value?.bind fun v => callMethod conversions traversal v method meanings
  | .chained _ _ => none
  | .construct type arguments => (evalAll env arguments).bind (construct traversal type)
  | .lambda parameter body =>
    some (.function fun v => (eval (env.set parameter v) body).bind Meaning.value?)
  | .conditional condition yes no =>
    (eval env condition).bind fun
      | .value (.bool true) => eval env yes
      | .value (.bool false) => eval env no
      | _ => none

noncomputable def evalAll (env : Env Atom) : List Expr → Option (List (Meaning Atom))
  | [] => some []
  | e :: es => (eval env e).bind fun meaning => (evalAll env es).map (meaning :: ·)

end

end Calls

namespace Value

variable {a b : List (Value Atom)} {v : Value Atom}

theorem mem_distinct : v ∈ distinct a ↔ v ∈ a := by
  simp [distinct]

theorem nodup_distinct (a : List (Value Atom)) : (distinct a).Nodup :=
  Finset.nodup_toList _

/-- Which elements there are decides alone, so order and repetition do not matter. -/
theorem distinct_eq_iff : distinct a = distinct b ↔ ∀ v, v ∈ a ↔ v ∈ b := by
  constructor
  · intro hsame v
    rw [← mem_distinct, hsame, mem_distinct]
  · intro h
    unfold distinct
    congr 1
    ext v
    simp [h v]

/-- Sets are one set if they have the same elements. -/
theorem setOf_eq_iff : setOf a = setOf b ↔ ∀ v, v ∈ a ↔ v ∈ b := by
  rw [setOf, setOf, set.injEq, distinct_eq_iff]

/-- Maps are one map if they have the same entries. -/
theorem mapOf_eq_iff : mapOf a = mapOf b ↔ ∀ v, v ∈ a ↔ v ∈ b := by
  rw [mapOf, mapOf, map.injEq, distinct_eq_iff]

theorem allWire_iff : allWire a = true ↔ ∀ v ∈ a, v.isWire = true := by
  induction a with
  | nil => simp [allWire]
  | cons v a ih => simp [allWire, ih]

end Value

namespace Traversal

variable (traversal : Traversal Atom) {elements : List (Value Atom)} {v : Value Atom}

noncomputable def ofSet (elements : List (Value Atom)) : List (Value Atom) :=
  traversal.order (Value.distinct elements)

theorem mem_ofSet : v ∈ traversal.ofSet elements ↔ v ∈ elements :=
  (traversal.perm _).mem_iff.trans Value.mem_distinct

theorem nodup_ofSet (elements : List (Value Atom)) : (traversal.ofSet elements).Nodup :=
  (traversal.perm _).nodup_iff.mpr (Value.nodup_distinct elements)

end Traversal

theorem mapM_eq_some_map {α β : Type} {f : α → Option β} {g : α → β} {l : List α}
    (h : ∀ x ∈ l, f x = some (g x)) : l.mapM f = some (l.map g) := by
  induction l with
  | nil => rfl
  | cons x l ih =>
      have hrest := ih fun y hy => h y (List.mem_cons_of_mem x hy)
      rw [List.mapM_cons, h x List.mem_cons_self, hrest]
      rfl

/-- A map is made where the new keys tell the elements apart. -/
theorem collectMap_eq_some {key value : Value Atom → Option (Value Atom)}
    {f : Value Atom → Value Atom} {elements : List (Value Atom)} (hnodup : elements.Nodup)
    (hentries : ∀ x ∈ elements, ∃ a b, key x = some a ∧ value x = some b ∧ f x = .entry a b)
    (hkeys : ∀ x ∈ elements, ∀ x' ∈ elements, (f x).key? = (f x').key? → x = x') :
    collectMap key value elements = some (.mapOf (elements.map f)) := by
  have hmapM : (elements.mapM fun x => do return Value.entry (← key x) (← value x)) =
      some (elements.map f) := by
    apply mapM_eq_some_map
    intro x hx
    obtain ⟨a, b, hkey, hvalue, hf⟩ := hentries x hx
    simp [hkey, hvalue, hf]
  have hdistinct : ((elements.map f).map Value.key?).Nodup := by
    rw [List.map_map]
    exact hnodup.map_on hkeys
  simp only [collectMap, hmapM]
  exact if_pos hdistinct

namespace WireField

theorem after?_append (word suffix : String) : after? word (word ++ suffix) = some suffix := by
  simp [after?]

/-- A setter says which field it sets and how often the field can occur. -/
theorem ofSetter?_setter (field : WireField) : ofSetter? field.setter = some field := by
  obtain ⟨arity, suffix⟩ := field
  cases arity with
  | singular => simp [ofSetter?, setter, after?_append]
  | repeated =>
      have hset : after? "set" ("addAll" ++ suffix) = none := by simp [after?]
      simp [ofSetter?, setter, hset, after?_append]
  | map =>
      have hset : after? "set" ("putAll" ++ suffix) = none := by simp [after?]
      have haddAll : after? "addAll" ("putAll" ++ suffix) = none := by simp [after?]
      simp [ofSetter?, setter, hset, haddAll, after?_append]

/-- The accessors of a field are called on values. -/
theorem isStatic_of_head {method : String} {c : Char} (hhead : method.toList.head? = some c)
    (hc : c ∉ ['f', 'n', 'c', 't']) : isStatic method = false := by
  rw [isStatic, decide_eq_false_iff_not]
  intro hmem
  apply hc
  simp only [List.mem_cons, List.not_mem_nil, or_false] at hmem
  rcases hmem with rfl | rfl | rfl | rfl | rfl | rfl | rfl <;> simp at hhead <;> simp [← hhead]

theorem head_getter (field : WireField) : field.getter.toList.head? = some 'g' := by
  obtain ⟨arity, suffix⟩ := field
  cases arity <;> simp [getter]

theorem head_has (field : WireField) : field.has.toList.head? = some 'h' := by
  simp [has]

/-- No getter is taken for the question whether a field was set. -/
theorem getter_ne_has (field field' : WireField) : field.getter ≠ field'.has := by
  intro hsame
  have hhead := field.head_getter
  rw [hsame, head_has] at hhead
  simp at hhead

theorem isStatic_getter (field : WireField) : isStatic field.getter = false :=
  isStatic_of_head field.head_getter (by decide)

theorem isStatic_setter (field : WireField) : isStatic field.setter = false := by
  obtain ⟨arity, suffix⟩ := field
  cases arity with
  | singular => exact isStatic_of_head (c := 's') (by simp [setter]) (by decide)
  | repeated => exact isStatic_of_head (c := 'a') (by simp [setter]) (by decide)
  | map => exact isStatic_of_head (c := 'p') (by simp [setter]) (by decide)

theorem isStatic_has (field : WireField) : isStatic field.has = false :=
  isStatic_of_head field.head_has (by decide)

end WireField

section Calls

variable {conversions : Conversions Atom} {traversal : Traversal Atom} {env : Env Atom}
  {receiver argument : Expr} {method : String} {v : Value Atom} {meaning : Meaning Atom}

theorem eval_static {type : String} {arguments : List Expr} {meanings : List (Meaning Atom)}
    (hmethod : isStatic method = true)
    (harguments : evalAll conversions traversal env arguments = some meanings) :
    eval conversions traversal env (.call (.source type) method arguments) =
      callStatic conversions traversal type method meanings := by
  rw [eval, harguments, Option.bind_some, if_pos hmethod]

theorem eval_method {arguments : List Expr} {meanings : List (Meaning Atom)}
    (hmethod : isStatic method = false)
    (hreceiver : eval conversions traversal env receiver = some (.value v))
    (harguments : evalAll conversions traversal env arguments = some meanings) :
    eval conversions traversal env (.call receiver method arguments) =
      callMethod conversions traversal v method meanings := by
  rw [eval, harguments, Option.bind_some, if_neg (by simp [hmethod]), hreceiver]
  rfl

theorem evalAll_nil : evalAll conversions traversal env [] = some [] := by
  rw [evalAll]

theorem evalAll_single (h : eval conversions traversal env argument = some meaning) :
    evalAll conversions traversal env [argument] = some [meaning] := by
  rw [evalAll, h, evalAll]
  rfl

theorem eval_newBuilder (type : String) :
    eval conversions traversal env (.call (.source type) "newBuilder" []) =
      some (.value (.builder none .null)) :=
  eval_static rfl evalAll_nil

/-- A setter makes the builder hold its field, in the form that is stored. -/
theorem eval_setter (field : WireField) {field? : Option WireField} {content z : Value Atom}
    (hreceiver : eval conversions traversal env receiver = some (.value (.builder field? content)))
    (hargument : eval conversions traversal env argument = some (.value v))
    (hstored : stored? traversal field.arity v = some z) :
    eval conversions traversal env (.call receiver field.setter [argument]) =
      some (.value (.builder (some field) z)) := by
  rw [eval_method field.isStatic_setter hreceiver (evalAll_single hargument)]
  unfold callMethod
  simp [WireField.ofSetter?_setter, hstored]

theorem eval_build {field? : Option WireField} {content : Value Atom}
    (hreceiver : eval conversions traversal env receiver =
      some (.value (.builder field? content))) :
    eval conversions traversal env (.call receiver "build" []) =
      some (.value (.message field? content)) :=
  eval_method rfl hreceiver evalAll_nil

/-- The getter of the field that was set gives what was stored. -/
theorem eval_getter (field : WireField) {content : Value Atom}
    (hreceiver : eval conversions traversal env receiver =
      some (.value (.message (some field) content))) :
    eval conversions traversal env (.call receiver field.getter []) = some (.value content) := by
  rw [eval_method field.isStatic_getter hreceiver evalAll_nil]
  unfold callMethod
  simp [readMessage]

/-- Only the field that was set is there. -/
theorem eval_has (field : WireField) {field? : Option WireField} {content : Value Atom}
    (hreceiver : eval conversions traversal env receiver =
      some (.value (.message field? content))) :
    eval conversions traversal env (.call receiver field.has []) =
      some (.value (.bool (field?.any (·.suffix = field.suffix)))) := by
  rw [eval_method field.isStatic_has hreceiver evalAll_nil]
  have hafter : WireField.after? "has" field.has = some field.suffix :=
    WireField.after?_append "has" field.suffix
  unfold callMethod
  simp [readMessage, WireField.getter_ne_has, hafter]

end Calls

end WireMapper.Java.Evaluation
