import WireMapper.Proofs.Java.Parser.Failing
import WireMapper.Proofs.Java.Parser.FieldDeclaration
import WireMapper.Proofs.Java.Parser.Signature

/-!
Fields and methods with annotated types. Either is read up to its type and on behind it. With
annotations in front of the type only, all of the member is read; at an annotation inside the type,
the name that should follow is missed.
-/

namespace WireMapper.Java

variable {kind : TypeKind} {name : String} {m : Modifiers} {ts : Tokens} {mods after : List Token}

/-- The fault at an annotation that stands where a name should. -/
def annotationFault : ParseFault :=
  .expectedIdentifier (some .atSign)

theorem identifier_of_atSign (h : next? ts = some .atSign) :
    identifier ts = .error ⟨annotationFault, ts⟩ := by
  unfold identifier
  split
  · simp [next?] at h
  · rw [h]
    rfl

/-- Behind the type a name is expected. -/
theorem afterType_of_atSign (h : next? ts = some .atSign) :
    afterType kind m ts = .error ⟨annotationFault, ts⟩ := by
  rw [afterType, if_neg (by simp [h]), identifier_of_atSign h]

theorem Modify.startsMember {m' : Modifiers} (h : Modify m mods m') (hafter : StartsMember after) :
    StartsMember (mods ++ after) := by
  cases h with
  | nil => exact hafter
  | word _ _ => exact ⟨_, _, rfl, by simp, by simp⟩
  | nonSealed _ => exact ⟨_, _, rfl, by simp, by simp⟩
  | annotated _ _ _ => exact ⟨_, _, rfl, by simp, by simp⟩

/-- A field declaration or a method, from its type or type parameters on. -/
inductive TypedMember where
  | field (type : TypeReference) (first : Declarator) (later : List Declarator)
  | method (parameters? : Option TypeArguments) (type : TypeReference) (name : String)
      (formals : List Parameter) (thrown : List TypeReference) (block? : Option (List Token))

namespace TypedMember

def parameters? : TypedMember → Option TypeArguments
  | field _ _ _ => none
  | method parameters? _ _ _ _ _ => parameters?

def type : TypedMember → TypeReference
  | field type _ _ => type
  | method _ type _ _ _ _ => type

/-- The tokens from the name on. -/
def tail : TypedMember → List Token
  | field _ first later => .ident first.name :: (first.tail ++ laterTokens later)
  | method _ _ name formals thrown block? =>
    .ident name :: .openParen :: (listTokens (formals.map Parameter.tokens) ++ .closeParen ::
      (throwsTokens thrown ++ blockTokens block?))

def tokens (d : TypedMember) : List Token :=
  TypeArguments.optionalTokens d.parameters? ++ (d.type.tokens ++ d.tail)

def bare : TypedMember → TypedMember
  | field type first later => field type.bare first later
  | method parameters? type name formals thrown block? =>
    method (parameters?.map TypeArguments.bare) type.bare name (formals.map Parameter.bare)
      (thrown.map TypeReference.bare) block?

def fields (kind : TypeKind) (m : Modifiers) : TypedMember → List FieldDecl
  | field _ first later => declaredFields kind m ((first :: later).map (·.name))
  | method _ _ _ _ _ _ => []

/-- What comes after the type is a declaration in which no comma misleads, or a method with
modifiers of its parameters and a block in which the braces balance. -/
inductive HasTail : TypedMember → Prop where
  | field {type : TypeReference} {first : Declarator} {later : List Declarator}
      (hclear : ∀ d ∈ first :: later, ¬ d.Misleads) : HasTail (field type first later)
  | method {parameters? : Option TypeArguments} {type : TypeReference} {name : String}
      {formals : List Parameter} {thrown : List TypeReference} {block? : Option (List Token)}
      (hformals : ∀ p ∈ formals, p.IsModified)
      (hblock : ∀ block, block? = some block → Balanced .openBrace .closeBrace block) :
      HasTail (method parameters? type name formals thrown block?)

/-- The type of the member can be read, and so can what stands around it. -/
structure Readable (d : TypedMember) : Prop where
  type : d.type.Readable
  parameters : Arguments .less .greater (TypeArguments.optionalTokens d.parameters?)
  tail : d.HasTail

theorem Readable.bare {d : TypedMember} (h : d.Readable) : d.bare.Readable := by
  obtain ⟨htype, hparameters, htail⟩ := h
  cases htail with
  | field hclear => exact ⟨htype.bare, .absent, .field hclear⟩
  | method hformals hblock =>
      refine ⟨htype.bare, TypeArguments.arguments_bare _, .method ?_ hblock⟩
      intro p hp
      obtain ⟨original, horiginal, rfl⟩ := List.mem_map.mp hp
      exact hformals original horiginal

theorem type_bare (d : TypedMember) : d.bare.type = d.type.bare := by
  cases d <;> rfl

theorem fields_bare (d : TypedMember) : d.bare.fields kind m = d.fields kind m := by
  cases d <;> rfl

theorem exists_tail (d : TypedMember) : ∃ name rest, d.tail = .ident name :: rest := by
  cases d <;> exact ⟨_, _, rfl⟩

variable {d : TypedMember}

/-- What stands behind the type is read to its end, and annotations in it make no difference. -/
theorem HasTail.afterType_eq (h : d.HasTail) (hts : words ts = d.tail ++ after) :
    ∃ rest, afterType kind m ts = .ok (d.fields kind m, rest) ∧ words rest = after := by
  cases h with
  | @field type first later hclear =>
      rw [tail, List.cons_append, List.append_assoc] at hts
      obtain ⟨ts₁, h₁, hsame⟩ := afterType_of_declaration kind m hts
      obtain ⟨rest, hnames, hrest⟩ := (declarators_eq_ok_iff h₁).mpr hclear
      exact ⟨rest, by rw [hsame, hnames]; rfl, hrest⟩
  | @method parameters? type name formals thrown block? hformals hblock =>
      have hlist : Signature (listTokens (formals.map Parameter.tokens)) := by
        apply signature_list
        intro item hitem
        obtain ⟨p, hp, rfl⟩ := List.mem_map.mp hitem
        exact Parameter.signature (hformals p hp)
      simp only [tail, List.cons_append, List.append_assoc] at hts
      obtain ⟨ts₁, h₁, hsame⟩ := afterType_of_called kind m (Or.inr ⟨name, rfl⟩) hts
      obtain ⟨rest, hmethod, hrest⟩ := hlist.method_eq (signature_throws thrown) hblock h₁
      exact ⟨rest, by rw [hsame, hmethod]; rfl, hrest⟩

theorem startsMember (d : TypedMember) : StartsMember d.tokens := by
  rw [tokens]
  cases d.parameters? with
  | none =>
      rw [TypeArguments.optionalTokens, List.nil_append, TypeReference.tokens, List.append_assoc]
      apply (modify_annotations ⟨none, false⟩ d.type.annotations).startsMember
      exact ⟨_, _, rfl, by simp, by simp⟩
  | some parameters => exact ⟨_, _, rfl, by simp, by simp⟩

/-- The annotations in front of the type of the member do not get in the way. -/
theorem Readable.exists_member_eq (h : d.Readable) (kind : TypeKind) (name : String)
    {type : List Token} (hmods : Modify ⟨none, false⟩ mods m) (htype : MemberType type)
    (hafter : StopsType after) (hbrace : after.head? ≠ some .openBrace)
    (hts : words ts = mods ++ (TypeArguments.optionalTokens d.parameters? ++
      (d.type.annotations.flatMap Annotation.tokens ++ (type ++ after)))) :
    ∃ rest, words rest = after.dropWhile (· = .dot) ∧
      member kind name ts = (afterType kind m rest).map fun read => (.fields read.1, read.2) :=
  Java.exists_member_eq kind name hmods h.parameters (modify_annotations _ _)
    (fun _ m => modify_annotations m _) htype hafter hbrace hts

/-- A member whose type is annotated in front only is read. -/
theorem Readable.acceptsMember (h : d.Readable) (hfront : d.type.AnnotatedInFront)
    (hmods : Modify ⟨none, false⟩ mods m) :
    AcceptsMember kind name (mods ++ d.tokens) (.fields (d.fields kind m)) := by
  obtain ⟨text, later, htail⟩ := d.exists_tail
  have hend : EndsMemberType d.tail := ⟨_, _, htail, Or.inl rfl⟩
  have hts : words (placed (mods ++ d.tokens)) =
    mods ++ (TypeArguments.optionalTokens d.parameters? ++
      (d.type.annotations.flatMap Annotation.tokens ++ (d.type.nameTokens ++ d.tail))) := by
    rw [words_placed, tokens, TypeReference.tokens, List.append_assoc]
  obtain ⟨ts₁, h₁, hmember⟩ := h.exists_member_eq kind name hmods (h.type.memberType hfront)
    hend.stopsType (by simp [htail]) hts
  rw [hend.dropWhile_eq, ← List.append_nil d.tail] at h₁
  obtain ⟨rest, hread, hrest⟩ := h.tail.afterType_eq h₁
  obtain rfl : rest = [] := by simpa [words] using hrest
  refine ⟨placed (mods ++ d.tokens), [], words_placed _, ?_⟩
  rw [List.append_nil, hmember, hread]
  rfl

/-- At an annotation elsewhere, the member is given up. -/
theorem Readable.fails (h : d.Readable) (hfront : ¬ d.type.AnnotatedInFront)
    (hmods : Modify ⟨none, false⟩ mods m) :
    Fails (readBody kind name) (mods ++ d.tokens) annotationFault := by
  obtain ⟨plain, stop, hsplit, htype, hstop⟩ := h.type.exists_stop hfront
  apply fails_of_member (hmods.startsMember d.startsMember)
  intro ts after hts
  have hstop' := hstop.append (d.tail ++ after)
  have hbrace : (stop ++ (d.tail ++ after)).head? ≠ some .openBrace := by
    obtain ⟨rest, rfl | rfl⟩ := hstop <;> simp
  simp only [tokens, TypeReference.tokens, hsplit, List.append_assoc] at hts
  obtain ⟨ts₁, h₁, hmember⟩ := h.exists_member_eq kind name hmods htype hstop'.stopsType hbrace hts
  have hnext : next? ts₁ = some .atSign := by
    rw [next?_eq_head?, h₁]
    exact hstop'.head?_dropWhile
  refine ⟨ts₁, ?_⟩
  rw [hmember, afterType_of_atSign hnext]
  rfl

end TypedMember

end WireMapper.Java
