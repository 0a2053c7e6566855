import WireMapper.Proofs.Java.Parser.RecordHead

/-!
Sources with annotated types. A field, a method or a record can stand at any site of a unit. With
annotations in front of its types only, the source is parsed to the unit that it is parsed to
without any annotations; with one inside a type that is read, it does not parse at all.
-/

namespace WireMapper.Java

/-- A unit around one record, with the modifiers of the record. -/
structure RecordFrame where
  header : List Token
  package? : Option String
  imports : List Import
  front : List Token
  mods : List Token
  back : List Token
  fill : TypeDecl → List TypeDecl
  modified : ∃ m, Modify ⟨none, false⟩ mods m
  site : DeclSite front back fill
  reads : ∀ name tokens,
    ReadsHeader header package? imports (front ++
      (mods ++ .ident "record" :: .ident name :: tokens))

namespace RecordFrame

def around (frame : RecordFrame) (r : RecordHead) (inner : List Token) : List Token :=
  frame.header ++ (frame.front ++
    ((frame.mods ++ .ident "record" :: (r.tokens ++ (inner ++ [.closeBrace]))) ++ frame.back))

def unit (frame : RecordFrame) (decl : TypeDecl) : CompilationUnit :=
  ⟨frame.package?, frame.imports, frame.fill decl⟩

/-- In front of the record the unit is read as its header. -/
theorem reads_record (frame : RecordFrame) (r : RecordHead) (inner : List Token) :
    ReadsHeader frame.header frame.package? frame.imports (frame.front ++
      ((frame.mods ++ .ident "record" :: (r.tokens ++ (inner ++ [.closeBrace]))) ++
        frame.back)) := by
  simp only [RecordHead.tokens, List.cons_append, List.append_assoc]
  exact frame.reads _ _

variable {r : RecordHead} {inner : List Token} {source : String}

theorem parse {body : TypeBody} (frame : RecordFrame) (h : r.Readable)
    (hfront : ∀ p ∈ r.components, p.type.AnnotatedInFront)
    (hinner : AcceptsMembers .record r.name inner body)
    (hsource : HasTokens source (frame.around r inner)) :
    CompilationUnit.parse source = .ok (frame.unit (r.start.withBody body)) := by
  obtain ⟨m, hmods⟩ := frame.modified
  have htypes := frame.site.addsTypes (h.declares hfront hmods hinner.adds)
  exact (frame.reads_record r inner).parse_eq htypes hsource

theorem parse_error (frame : RecordFrame) (h : r.Readable)
    (hfront : ¬ ∀ p ∈ r.components, p.type.AnnotatedInFront)
    (hsource : HasTokens source (frame.around r inner)) :
    ∃ line, CompilationUnit.parse source = .error ⟨line, annotationFault⟩ := by
  obtain ⟨m, hmods⟩ := frame.modified
  have hfails := (h.fails hfront hmods).append (inner ++ [.closeBrace])
  rw [List.append_assoc, List.cons_append] at hfails
  exact (frame.reads_record r inner).parse_error (frame.site.fails hfails) hsource

end RecordFrame

def recordFrame : RecordFrame where
  header := []
  package? := none
  imports := []
  front := []
  mods := []
  back := []
  fill decl := [] ++ decl :: []
  modified := ⟨_, .nil _⟩
  site := .top ⟨[], rfl, by rw [types]⟩ ⟨[], rfl, by rw [types]⟩
  reads name tokens := by
    apply readsHeader_nil (fun _ => rfl) (by simp) (by simp)
    simp

/-- A unit in which a declaration uses types, as tokens with the annotations of these and without
them. The types are those behind which the name of a field, method or component is read. -/
inductive UsesTypes : List Token → List Token → List TypeReference → CompilationUnit → Prop where
  | member {kind : TypeKind} {name : String} (frame : UnitFrame kind name) {mods b₁ b₂ : List Token}
      {m : Modifiers} {d : TypedMember} {body₁ body₂ : TypeBody}
      (hmods : Modify ⟨none, false⟩ mods m) (hread : d.Readable)
      (h₁ : AcceptsMembers kind name b₁ body₁) (h₂ : AcceptsMembers kind name b₂ body₂) :
      UsesTypes (frame.around (b₁ ++ ((mods ++ d.tokens) ++ b₂)))
        (frame.around (b₁ ++ ((mods ++ d.bare.tokens) ++ b₂))) [d.type]
        (frame.unit (body₁.append (TypeBody.append ⟨d.fields kind m, []⟩ body₂)))
  | record (frame : RecordFrame) {r : RecordHead} {inner : List Token} {body : TypeBody}
      (hread : r.Readable) (hinner : AcceptsMembers .record r.name inner body) :
      UsesTypes (frame.around r inner) (frame.around r.bare inner) (r.components.map (·.type))
        (frame.unit (r.start.withBody body))

namespace UsesTypes

variable {tokens bare : List Token} {types : List TypeReference} {unit : CompilationUnit}
    {source : String}

theorem parse (h : UsesTypes tokens bare types unit) (hfront : ∀ t ∈ types, t.AnnotatedInFront)
    (hsource : HasTokens source tokens) : CompilationUnit.parse source = .ok unit := by
  cases h with
  | @member kind name frame mods b₁ b₂ m d body₁ body₂ hmods hread h₁ h₂ =>
      have htype := hfront d.type List.mem_cons_self
      have hmember : Adds kind name (mods ++ d.tokens) ⟨d.fields kind m, []⟩ :=
        Adds.fields (hread.acceptsMember htype hmods)
      exact frame.parse (h₁.adds.append (hmember.append h₂.adds)) hsource
  | record frame hread hinner =>
      exact frame.parse hread (List.forall_mem_map.mp hfront) hinner hsource

theorem parse_error (h : UsesTypes tokens bare types unit)
    (hfront : ¬ ∀ t ∈ types, t.AnnotatedInFront) (hsource : HasTokens source tokens) :
    ∃ line, CompilationUnit.parse source = .error ⟨line, annotationFault⟩ := by
  cases h with
  | @member kind name frame mods b₁ b₂ m d body₁ body₂ hmods hread h₁ h₂ =>
      rw [List.forall_mem_singleton] at hfront
      have hfails := Fails.behind h₁.adds ((hread.fails hfront hmods).append b₂)
      exact frame.parse_error hfails hsource
  | record frame hread hinner =>
      rw [List.forall_mem_map] at hfront
      exact frame.parse_error hread hfront hsource

/-- The tokens without the annotations are those of the same unit, with nothing left that is in the
way. -/
theorem exists_bare (h : UsesTypes tokens bare types unit) :
    ∃ tokens' types', UsesTypes bare tokens' types' unit ∧ ∀ t ∈ types', t.AnnotatedInFront := by
  cases h with
  | @member kind name frame mods b₁ b₂ m d body₁ body₂ hmods hread h₁ h₂ =>
      have hbare := UsesTypes.member frame hmods hread.bare h₁ h₂
      rw [d.fields_bare, d.type_bare] at hbare
      refine ⟨_, _, hbare, ?_⟩
      rw [List.forall_mem_singleton]
      exact d.type.annotatedInFront_bare
  | @record frame r inner body hread hinner =>
      have hbare := UsesTypes.record frame hread.bare hinner
      rw [r.start_bare] at hbare
      refine ⟨_, _, hbare, ?_⟩
      intro t ht
      obtain ⟨p, hp, rfl⟩ := List.mem_map.mp ht
      obtain ⟨original, _, rfl⟩ := List.mem_map.mp hp
      exact original.type.annotatedInFront_bare

end UsesTypes

/-- Annotations are skipped in front of types and nowhere else. A source in which a field, a method
or a record uses annotated types, at any site of a unit, is parsed to what it is parsed to without
any of the annotations, if outside of type arguments each annotation of the type of the field, the
result of the method or the types of the components stands in front of the type. Otherwise, with an
annotation in front of a later segment of the name or of a pair of array brackets, the source does
not parse: the parser finds the sign of the annotation where it expects the name of the field,
method or component. Annotations in other types of a method, those of its parameters, of what it
throws and of its type parameters, make no difference anywhere. -/
theorem annotations_skipped_in_front (tokens bare : List Token) (types : List TypeReference)
    (unit : CompilationUnit) (source bareSource : String) (h : UsesTypes tokens bare types unit)
    (hsource : HasTokens source tokens) (hbare : HasTokens bareSource bare) :
    CompilationUnit.parse bareSource = .ok unit ∧
      ((∀ t ∈ types, t.AnnotatedInFront) →
        CompilationUnit.parse source = CompilationUnit.parse bareSource) ∧
      ((¬ ∀ t ∈ types, t.AnnotatedInFront) →
        ∃ line, CompilationUnit.parse source = .error ⟨line, annotationFault⟩) := by
  obtain ⟨tokens', types', huses, hplain⟩ := h.exists_bare
  have hparse : CompilationUnit.parse bareSource = .ok unit := huses.parse hplain hbare
  refine ⟨hparse, ?_, ?_⟩
  · intro hfront
    rw [h.parse hfront hsource, hparse]
  · intro hfront
    exact h.parse_error hfront hsource

def notNull : Annotation :=
  .marker "N" (by simp)

/-- `@N Map.Entry<@N K, V>[]` -/
def entryType : TypeReference where
  annotations := [notNull]
  first := "Map"
  arguments := none
  later := [⟨[], "Entry", some (.annotated notNull (.mark (.ident "K") rfl (.mark .comma rfl
    (.mark (.ident "V") rfl .nil))))⟩]
  dimensions := [[]]

theorem entryType_readable : entryType.Readable where
  modifier _ := rfl
  decl := by decide
  arguments := .absent
  later := by
    intro s hs
    obtain rfl := List.mem_singleton.mp hs
    exact .bracketed _ (by decide)

theorem entryType_annotatedInFront : entryType.AnnotatedInFront where
  later s hs := by rw [List.mem_singleton.mp hs]
  dimensions annotations hannotations := List.mem_singleton.mp hannotations

/-- `String @N []` -/
def namesType : TypeReference :=
  ⟨[], "String", none, [], [[notNull]]⟩

theorem namesType_readable : namesType.Readable :=
  ⟨fun _ => rfl, by decide, .absent, by simp [namesType]⟩

theorem namesType_not_annotatedInFront : ¬ namesType.AnnotatedInFront := by
  intro h
  have hannotations := h.dimensions [notNull] (by simp [namesType])
  cases hannotations

/-- A field and a record with annotations in front of a type and in its type arguments, and a method
with one in front of array brackets. -/
theorem annotations_skipped_in_front_entry :
    CompilationUnit.parse "class A \x7b private @N Map.Entry<@N K, V>[] x; \x7d" =
        .ok ⟨none, [], [⟨"A", .class_, none, [⟨"x", .private_, false⟩], []⟩]⟩ ∧
      (∃ line,
        CompilationUnit.parse "class A \x7b String @N [] f() throws @N Map.Entry<@N K, V>[]; \x7d" =
        .error ⟨line, annotationFault⟩) ∧
      CompilationUnit.parse "record R(@N Map.Entry<@N K, V>[] a) \x7b \x7d" =
        .ok ⟨none, [], [⟨"R", .record, none, [⟨"a", .private_, false⟩], []⟩]⟩ := by
  refine ⟨?field, ?method, ?record⟩
  case field =>
    have hmods : Modify ⟨none, false⟩ [.ident "private"] ⟨some .private_, false⟩ :=
      .word rfl (.nil _)
    have hclear : ∀ d ∈ [Declarator.mk "x" [] none .nil (by simp)], ¬ d.Misleads := by
      intro d hd
      rw [List.mem_singleton.mp hd]
      rintro ⟨tokens, hnone, _⟩
      cases hnone
    have huses := UsesTypes.member (classFrame "A") hmods
      (d := .field entryType ⟨"x", [], none, .nil, by simp⟩ [])
      ⟨entryType_readable, .absent, .field hclear⟩
      Adds.nil.acceptsMembers Adds.nil.acceptsMembers
    obtain ⟨hbare, hfront, _⟩ := annotations_skipped_in_front _ _ _ _
      "class A \x7b private @N Map.Entry<@N K, V>[] x; \x7d"
      "class A \x7b private Map.Entry<K, V>[] x; \x7d" huses
      (hasTokens_of_scan (by decide +kernel)) (hasTokens_of_scan (by decide +kernel))
    exact (hfront (List.forall_mem_singleton.mpr entryType_annotatedInFront)).trans hbare
  case method =>
    have huses := UsesTypes.member (classFrame "A") (.nil _)
      (d := .method none namesType "f" [] [entryType] none)
      ⟨namesType_readable, .absent, .method (by simp) (by simp)⟩ Adds.nil.acceptsMembers
      Adds.nil.acceptsMembers
    obtain ⟨_, _, hfails⟩ := annotations_skipped_in_front _ _ _ _
      "class A \x7b String @N [] f() throws @N Map.Entry<@N K, V>[]; \x7d"
      "class A \x7b String[] f() throws Map.Entry<K, V>[]; \x7d" huses
      (hasTokens_of_scan (by decide +kernel)) (hasTokens_of_scan (by decide +kernel))
    exact hfails fun hfront => namesType_not_annotatedInFront (List.forall_mem_singleton.mp hfront)
  case record =>
    have hcomponents : ∀ p ∈ [Parameter.mk [] entryType false "a"], p.Readable := by
      intro p hp
      rw [List.mem_singleton.mp hp]
      exact ⟨⟨_, .nil _⟩, entryType_readable⟩
    have huses := UsesTypes.record recordFrame (r := ⟨"R", none, [⟨[], entryType, false, "a"⟩], []⟩)
      ⟨.absent, hcomponents, by simp⟩ Adds.nil.acceptsMembers
    obtain ⟨hbare, hfront, _⟩ := annotations_skipped_in_front _ _ _ _
      "record R(@N Map.Entry<@N K, V>[] a) \x7b \x7d"
      "record R(Map.Entry<K, V>[] a) \x7b \x7d" huses
      (hasTokens_of_scan (by decide +kernel)) (hasTokens_of_scan (by decide +kernel))
    exact (hfront (List.forall_mem_singleton.mpr entryType_annotatedInFront)).trans hbare

/-- A field whose type has an annotation inside its name, and the end of its class. -/
def annotatedName : Tokens :=
  placed [.ident "java", .dot, .ident "lang", .dot, .atSign, .ident "N", .ident "String",
    .ident "x", .semicolon, .closeBrace]

/-- The name of a class with an annotation behind its package: although an annotation can stand
there, the source is no unit, and without the annotation it is one. -/
theorem annotation_in_name_not_skipped :
    TypeReference.Readable ⟨[], "java", none,
        [⟨[], "lang", none⟩, ⟨[notNull], "String", none⟩], []⟩ ∧
      CompilationUnit.parse "class A \x7b java.lang.String x; \x7d" =
        .ok ⟨none, [], [⟨"A", .class_, none, [⟨"x", .package, false⟩], []⟩]⟩ ∧
      CompilationUnit.parse "class A \x7b java.lang.@N String x; \x7d" =
        .error ⟨1, .expectedIdentifier (some .atSign)⟩ := by
  refine ⟨?type, ?bare, ?annotated⟩
  case type =>
    refine ⟨fun _ => rfl, by decide, .absent, ?_⟩
    intro s hs
    simp only [List.mem_cons, List.not_mem_nil, or_false] at hs
    rcases hs with rfl | rfl <;> exact .absent
  case bare =>
    have hfield : Adds .class_ "A" [.ident "java", .dot, .ident "lang", .dot, .ident "String",
        .ident "x", .semicolon] ⟨[⟨"x", .package, false⟩], []⟩ :=
      Adds.fields ⟨placed [.ident "java", .dot, .ident "lang", .dot, .ident "String", .ident "x",
        .semicolon], [], rfl, by decide +kernel⟩
    exact (classFrame "A").parse hfield (hasTokens_of_scan (by decide +kernel))
  case annotated =>
    have hscan : scan "class A \x7b java.lang.@N String x; \x7d" =
        .ok (classHead "A" ++ annotatedName) := by
      decide +kernel
    have hmember : member .class_ "A" annotatedName =
        .error ⟨annotationFault,
          placed [.atSign, .ident "N", .ident "String", .ident "x", .semicolon, .closeBrace]⟩ := by
      decide +kernel
    have hstart : StartsMember (words annotatedName) := ⟨.ident "java", _, rfl, by simp, by simp⟩
    exact parse_error_of_member hscan hstart hmember

end WireMapper.Java
