import WireMapper.Proofs.Java.Parser.Shape

/-!
Type references with annotations at all places the grammar has for them: in front of the type, in
front of a later segment of its name, in front of a pair of array brackets, and anywhere in type
arguments. The parser looks for annotations in front of a type only, and passes over those in type
arguments with the rest of the arguments. At any other annotation it stops.
-/

namespace WireMapper.Java

/-- An annotation: a dotted name, and arguments in parentheses if it has any. -/
structure Annotation where
  first : String
  names : List String
  arguments : List Token
  isUse : first ≠ "interface"
  isBracketed : Arguments .openParen .closeParen arguments

def Annotation.marker (name : String) (isUse : name ≠ "interface") : Annotation :=
  ⟨name, [], [], isUse, .absent⟩

def Annotation.tokens (a : Annotation) : List Token :=
  .atSign :: .ident a.first :: ((a.names.flatMap fun name => [.dot, .ident name]) ++ a.arguments)

/-- Marks and words of type arguments other than their angle brackets. -/
def Token.isTypeMark : Token → Bool
  | .ident _ | .dot | .comma | .openBracket | .closeBracket | .other '?' | .other '&' => true
  | _ => false

/-- What stands between the angle brackets of type arguments or type parameters: names and marks,
annotations among them, and type arguments again. -/
inductive TypeArguments where
  | nil
  | mark (token : Token) (isMark : token.isTypeMark = true) (rest : TypeArguments)
  | annotated (a : Annotation) (rest : TypeArguments)
  | nested (inner rest : TypeArguments)

namespace TypeArguments

def tokens : TypeArguments → List Token
  | nil => []
  | mark token _ rest => token :: rest.tokens
  | annotated a rest => a.tokens ++ rest.tokens
  | nested inner rest => .less :: (inner.tokens ++ .greater :: rest.tokens)

def bare : TypeArguments → TypeArguments
  | nil => nil
  | mark token isMark rest => mark token isMark rest.bare
  | annotated _ rest => rest.bare
  | nested inner rest => nested inner.bare rest.bare

def optionalTokens : Option TypeArguments → List Token
  | none => []
  | some arguments => .less :: (arguments.tokens ++ [.greater])

end TypeArguments

/-- A later segment of a type's name, with the annotations in front of it and its type arguments. -/
structure Segment where
  annotations : List Annotation
  name : String
  arguments : Option TypeArguments

def Segment.tokens (s : Segment) : List Token :=
  .dot :: (s.annotations.flatMap Annotation.tokens ++
    .ident s.name :: TypeArguments.optionalTokens s.arguments)

def Segment.bare (s : Segment) : Segment :=
  ⟨[], s.name, s.arguments.map TypeArguments.bare⟩

def dimensionTokens (annotations : List Annotation) : List Token :=
  annotations.flatMap Annotation.tokens ++ [.openBracket, .closeBracket]

/-- A type as it is referred to: the annotations in front of it, its name with type arguments at any
segment, and its pairs of array brackets. -/
structure TypeReference where
  annotations : List Annotation
  first : String
  arguments : Option TypeArguments
  later : List Segment
  dimensions : List (List Annotation)

namespace TypeReference

/-- The tokens behind the annotations in front of the type. -/
def nameTokens (t : TypeReference) : List Token :=
  .ident t.first :: (TypeArguments.optionalTokens t.arguments ++
    (t.later.flatMap Segment.tokens ++ t.dimensions.flatMap dimensionTokens))

def tokens (t : TypeReference) : List Token :=
  t.annotations.flatMap Annotation.tokens ++ t.nameTokens

def bare (t : TypeReference) : TypeReference where
  annotations := []
  first := t.first
  arguments := t.arguments.map TypeArguments.bare
  later := t.later.map Segment.bare
  dimensions := t.dimensions.map fun _ => []

/-- All annotations outside of type arguments stand in front of the type. -/
structure AnnotatedInFront (t : TypeReference) : Prop where
  later : ∀ s ∈ t.later, s.annotations = []
  dimensions : ∀ annotations ∈ t.dimensions, annotations = []

/-- The type starts with no modifier and with no word that starts a declaration, and the angle
brackets in its type arguments balance, also those in arguments of annotations. -/
structure Readable (t : TypeReference) : Prop where
  modifier : ∀ m : Modifiers, m.add? t.first = none
  decl : t.first ∉ ["class", "interface", "enum", "record"]
  arguments : Arguments .less .greater (TypeArguments.optionalTokens t.arguments)
  later : ∀ s ∈ t.later, Arguments .less .greater (TypeArguments.optionalTokens s.arguments)

end TypeReference

variable {ts : Tokens} {tokens after : List Token} {opening closing : Token} {t : TypeReference}

theorem Unwinds.append {depth : Nat} {tokens' : List Token} (h : Balanced opening closing tokens)
    (h' : Unwinds opening closing depth tokens') :
    Unwinds opening closing depth (tokens ++ tokens') := by
  have hwhole := h.whole
  have hwhole' := h'.whole
  constructor
  · intro part hpart
    rcases List.prefix_or_prefix_of_prefix hpart
      (List.prefix_append tokens tokens') with hinner | hinner
    · have hfront := h.front part hinner
      omega
    · obtain ⟨part', rfl⟩ := hinner
      have hfront := h'.front part' ((List.prefix_append_right_inj tokens).mp hpart)
      simp only [List.count_append]
      omega
  · simp only [List.count_append]
    omega

/-- A balanced stretch in its brackets, in front of another stretch. -/
theorem Unwinds.bracketed {inner : List Token} (hne : opening ≠ closing)
    (hinner : Balanced opening closing inner) (h : Balanced opening closing tokens) :
    Balanced opening closing (opening :: (inner ++ closing :: tokens)) := by
  apply (unwinds_opening_iff hne).mpr
  apply hinner.append
  exact (unwinds_closing_iff hne).mpr ⟨0, rfl, h⟩

/-- Without annotations, the angle brackets of type arguments balance. -/
theorem TypeArguments.balanced_bare (arguments : TypeArguments) :
    Balanced .less .greater arguments.bare.tokens := by
  induction arguments with
  | nil => exact unwinds_nil_iff.mpr rfl
  | mark token isMark rest ih =>
      have hne : token ≠ .less ∧ token ≠ .greater := by
        constructor <;> (rintro rfl; cases isMark)
      exact (unwinds_other_iff hne.1 hne.2).mpr ih
  | annotated a rest ih => exact ih
  | nested inner rest ihInner ih => exact Unwinds.bracketed (by simp) ihInner ih

theorem TypeArguments.arguments_bare (arguments? : Option TypeArguments) :
    Arguments .less .greater (optionalTokens (arguments?.map bare)) := by
  cases arguments? with
  | none => exact Arguments.absent
  | some arguments => exact Arguments.bracketed _ arguments.balanced_bare

/-- Annotations are modifiers that say nothing. -/
theorem modify_annotations (m : Modifiers) (annotations : List Annotation) :
    Modify m (annotations.flatMap Annotation.tokens) m := by
  induction annotations with
  | nil => exact .nil m
  | cons a annotations ih =>
      rw [List.flatMap_cons, Annotation.tokens]
      simp only [List.cons_append, List.append_assoc]
      exact .annotated a.isUse a.isBracketed ih

/-- The tokens are an annotation, or one behind a dot. -/
def MeetsAnnotation (tokens : List Token) : Prop :=
  ∃ rest, tokens = .atSign :: rest ∨ tokens = .dot :: .atSign :: rest

theorem MeetsAnnotation.append (h : MeetsAnnotation tokens) (after : List Token) :
    MeetsAnnotation (tokens ++ after) := by
  obtain ⟨rest, rfl | rfl⟩ := h
  · exact ⟨rest ++ after, Or.inl rfl⟩
  · exact ⟨rest ++ after, Or.inr rfl⟩

/-- A type is read up to an annotation inside it. -/
theorem MeetsAnnotation.stopsType (h : MeetsAnnotation tokens) : StopsType tokens := by
  obtain ⟨rest, rfl | rfl⟩ := h
  · exact ⟨endsName_of_head (by simp), by simp, by simp, by simp⟩
  · refine ⟨?_, by simp, by simp, by simp⟩
    intro text after hsame
    cases hsame

theorem MeetsAnnotation.head?_dropWhile (h : MeetsAnnotation tokens) :
    (tokens.dropWhile (· = .dot)).head? = some .atSign := by
  obtain ⟨rest, rfl | rfl⟩ := h <;> simp

theorem meetsAnnotation_annotations {annotations : List Annotation} (h : annotations ≠ [])
    (after : List Token) :
    ∃ rest, annotations.flatMap Annotation.tokens ++ after = .atSign :: rest := by
  obtain ⟨a, annotations, rfl⟩ := List.exists_cons_of_ne_nil h
  exact ⟨_, rfl⟩

/-- Segments without annotations are what the parser takes for later segments. -/
theorem laterSegments_of_bare {segments : List Segment} (hbare : ∀ s ∈ segments, s.annotations = [])
    (hread : ∀ s ∈ segments, Arguments .less .greater (TypeArguments.optionalTokens s.arguments)) :
    LaterSegments (segments.flatMap Segment.tokens) := by
  induction segments with
  | nil => exact .nil
  | cons s segments ih =>
      rw [List.flatMap_cons, Segment.tokens, hbare s List.mem_cons_self]
      apply LaterSegments.cons (hread s List.mem_cons_self)
      apply ih
      · exact fun other hother => hbare other (List.mem_cons_of_mem s hother)
      · exact fun other hother => hread other (List.mem_cons_of_mem s hother)

theorem dimensions_of_bare {pairs : List (List Annotation)}
    (hbare : ∀ annotations ∈ pairs, annotations = []) :
    Dimensions (pairs.flatMap dimensionTokens) := by
  induction pairs with
  | nil => exact .nil
  | cons annotations pairs ih =>
      rw [List.flatMap_cons, hbare annotations List.mem_cons_self]
      apply Dimensions.cons
      exact ih fun other hother => hbare other (List.mem_cons_of_mem annotations hother)

namespace TypeReference

/-- A type that is annotated in front only is read like one without annotations. -/
theorem Readable.memberType (h : t.Readable) (hfront : t.AnnotatedInFront) :
    MemberType t.nameTokens :=
  .mk h.modifier h.decl h.arguments (laterSegments_of_bare hfront.later h.later)
    (dimensions_of_bare hfront.dimensions)

/-- What does not hold of all elements fails at a first one. -/
theorem exists_first {α : Type} {p : α → Prop} {xs : List α} (h : ¬ ∀ x ∈ xs, p x) :
    ∃ before x after, xs = before ++ x :: after ∧ (∀ y ∈ before, p y) ∧ ¬ p x := by
  induction xs with
  | nil => exact absurd (by simp) h
  | cons x xs ih =>
      by_cases hx : p x
      · obtain ⟨before, y, after, rfl, hbefore, hy⟩ := ih fun hall => h (by simpa [hx] using hall)
        exact ⟨x :: before, y, after, rfl, by simpa [hx] using hbefore, hy⟩
      · exact ⟨[], x, xs, rfl, by simp, hx⟩

/-- Any other type is one that is annotated in front only, up to the first annotation elsewhere. -/
theorem Readable.exists_stop (h : t.Readable) (hfront : ¬ t.AnnotatedInFront) :
    ∃ plain stop, t.nameTokens = plain ++ stop ∧ MemberType plain ∧ MeetsAnnotation stop := by
  -- The segments of the name come before the array brackets, so an annotated one stops the parser
  -- first.
  by_cases hlater : ∀ s ∈ t.later, s.annotations = []
  · have hdimensions : ¬ ∀ annotations ∈ t.dimensions, annotations = [] :=
      fun hall => hfront ⟨hlater, hall⟩
    obtain ⟨before, annotations, behind, hsplit, hbefore, hannotated⟩ := exists_first hdimensions
    obtain ⟨rest, hstop⟩ := meetsAnnotation_annotations hannotated
      ([.openBracket, .closeBracket] ++ behind.flatMap dimensionTokens)
    refine ⟨_, .atSign :: rest, ?_, .mk h.modifier h.decl h.arguments
      (laterSegments_of_bare hlater h.later) (dimensions_of_bare hbefore), rest, Or.inl rfl⟩
    rw [nameTokens, hsplit, ← hstop]
    simp [dimensionTokens]
  · obtain ⟨before, s, behind, hsplit, hbefore, hannotated⟩ := exists_first hlater
    obtain ⟨rest, hstop⟩ := meetsAnnotation_annotations hannotated
      (.ident s.name :: (TypeArguments.optionalTokens s.arguments ++
        (behind.flatMap Segment.tokens ++ t.dimensions.flatMap dimensionTokens)))
    have hread : ∀ other ∈ before,
        Arguments .less .greater (TypeArguments.optionalTokens other.arguments) :=
      fun other hother => h.later other (by simp [hsplit, hother])
    refine ⟨_, .dot :: .atSign :: rest, ?_, .mk h.modifier h.decl h.arguments
      (laterSegments_of_bare hbefore hread) .nil, rest, Or.inr rfl⟩
    rw [nameTokens, hsplit, ← hstop]
    simp [Segment.tokens]

theorem Readable.bare (h : t.Readable) : t.bare.Readable where
  modifier := h.modifier
  decl := h.decl
  arguments := TypeArguments.arguments_bare t.arguments
  later := by
    intro s hs
    obtain ⟨s, _, rfl⟩ := List.mem_map.mp hs
    exact TypeArguments.arguments_bare s.arguments

theorem annotatedInFront_bare (t : TypeReference) : t.bare.AnnotatedInFront where
  later := by
    intro s hs
    obtain ⟨s, _, rfl⟩ := List.mem_map.mp hs
    rfl
  dimensions := by
    intro annotations hannotations
    obtain ⟨_, _, rfl⟩ := List.mem_map.mp hannotations
    rfl

end TypeReference

end WireMapper.Java
