import WireMapper.Java.Parser.Unit

/-!
Readers only take tokens from the front. What a reader leaves is a suffix of what it was given, so
whatever holds of all tokens of a source holds of the tokens at every place in it.
-/

namespace WireMapper.Java

instance : Trans (@List.IsSuffix PlacedToken) List.IsSuffix List.IsSuffix :=
  ⟨List.IsSuffix.trans⟩

variable {ts rest : Tokens}

theorem expect_suffix {token : Token} {u : Unit} (h : expect token ts = .ok (u, rest)) :
    rest <:+ ts := by
  obtain ⟨line, rfl⟩ := expect_eq_ok h
  exact List.suffix_cons _ _

theorem identifier_suffix {text : String} (h : identifier ts = .ok (text, rest)) :
    rest <:+ ts := by
  obtain ⟨line, rfl⟩ := identifier_eq_ok h
  exact List.suffix_cons _ _

theorem dottedNames_suffix (ts : Tokens) : (dottedNames ts).2 <:+ ts := by
  fun_induction dottedNames ts with
  | case1 line text line' ts ih => exact ih.trans ⟨[_, _], rfl⟩
  | case2 => exact List.suffix_rfl

theorem qualifiedName_suffix {name : String} (h : qualifiedName ts = .ok (name, rest)) :
    rest <:+ ts := by
  obtain ⟨first, after, hfirst, -, rfl⟩ := qualifiedName_eq_ok h
  exact (dottedNames_suffix after).trans (identifier_suffix hfirst)

theorem closeBracket_suffix {opening closing : Token} {depth : Nat}
    (h : closeBracket opening closing depth ts = .ok rest) : rest <:+ ts := by
  fun_induction closeBracket opening closing depth ts with
  | case1 => cases h
  | case2 => rename_i ih; exact (ih h).trans (List.suffix_cons _ _)
  | case3 => cases h; exact List.suffix_cons _ _
  | case4 => rename_i ih; exact (ih h).trans (List.suffix_cons _ _)
  | case5 => rename_i ih; exact (ih h).trans (List.suffix_cons _ _)

theorem skipBracketed_suffix {opening closing : Token}
    (h : skipBracketed opening closing ts = .ok rest) : rest <:+ ts := by
  obtain ⟨after, hopen, hclose⟩ := skipBracketed_eq_ok h
  exact (closeBracket_suffix hclose).trans (expect_suffix hopen)

theorem skipOptional_suffix {opening closing : Token}
    (h : skipOptional opening closing ts = .ok rest) : rest <:+ ts := by
  rcases skipOptional_eq_ok h with ⟨-, hskip⟩ | ⟨-, rfl⟩
  · exact skipBracketed_suffix hskip
  · exact List.suffix_rfl

theorem skipAnnotationUse_suffix (h : skipAnnotationUse ts = .ok rest) : rest <:+ ts := by
  obtain ⟨_, _, _, hsign, hname, harguments⟩ := skipAnnotationUse_eq_ok h
  exact ((skipOptional_suffix harguments).trans (qualifiedName_suffix hname)).trans
    (expect_suffix hsign)

theorem afterNonSealed?_suffix (h : afterNonSealed? ts = some rest) : rest <:+ ts := by
  obtain ⟨_, _, _, rfl⟩ := afterNonSealed?_eq_some h
  exact ⟨[_, _, _], rfl⟩

theorem modifiersFrom_suffix {m m' : Modifiers} (h : modifiersFrom m ts = .ok (m', rest)) :
    rest <:+ ts := by
  fun_induction modifiersFrom m ts with
  | case1 => cases h; exact List.suffix_rfl
  | case2 => cases h; exact List.suffix_rfl
  | case3 => cases h
  | case4 => rename_i hskip ih; exact (ih h).trans (skipAnnotationUse_suffix hskip)
  | case5 => rename_i ih; exact (ih h).trans (List.suffix_cons _ _)
  | case6 => rename_i hafter ih; exact (ih h).trans (afterNonSealed?_suffix hafter)
  | case7 => cases h; exact List.suffix_rfl
  | case8 => cases h; exact List.suffix_rfl

theorem modifiers_suffix {m : Modifiers} (h : modifiers ts = .ok (m, rest)) : rest <:+ ts :=
  modifiersFrom_suffix h

theorem typeSegments_suffix {names : List String} (h : typeSegments ts = .ok (names, rest)) :
    rest <:+ ts := by
  fun_induction typeSegments ts generalizing names rest with
  | case1 => cases h
  | case2 => cases h
  | case3 =>
      rename_i hskip _ _ hrest ih
      cases h
      exact ((ih hrest).trans (skipOptional_suffix hskip)).trans ⟨[_, _], rfl⟩
  | case4 => cases h; exact List.suffix_rfl

theorem skipDimensions_suffix (ts : Tokens) : skipDimensions ts <:+ ts := by
  fun_induction skipDimensions ts with
  | case1 => rename_i ih; exact ih.trans ⟨[_, _], rfl⟩
  | case2 => exact List.suffix_rfl

theorem skipDots_suffix (ts : Tokens) : skipDots ts <:+ ts := by
  fun_induction skipDots ts with
  | case1 => rename_i ih; exact ih.trans (List.suffix_cons _ _)
  | case2 => exact List.suffix_rfl

theorem typeName_suffix {name : String} (h : typeName ts = .ok (name, rest)) : rest <:+ ts := by
  obtain ⟨_, ts₁, _, ts₂, ts₃, _, ts₄, hmodifiers, hname, harguments, hsegments, -, rfl⟩ :=
    typeName_eq_ok h
  calc skipDots (skipDimensions ts₄)
      <:+ ts₄ := (skipDots_suffix _).trans (skipDimensions_suffix _)
    _ <:+ ts₃ := typeSegments_suffix hsegments
    _ <:+ ts₂ := skipOptional_suffix harguments
    _ <:+ ts₁ := qualifiedName_suffix hname
    _ <:+ ts := modifiers_suffix hmodifiers

theorem recordComponentsFrom_suffix {fields : List FieldDecl}
    (h : recordComponentsFrom ts = .ok (fields, rest)) : rest <:+ ts := by
  fun_induction recordComponentsFrom ts generalizing fields rest with
  | case1 => cases h; exact List.tail_suffix _
  | case2 => cases h
  | case3 => cases h
  | case4 => cases h
  | case5 => cases h
  | case6 =>
      rename_i hm _ _ ht _ _ hi _ _ _ hrest ih
      cases h
      exact ((((ih hrest).trans (List.tail_suffix _)).trans (identifier_suffix hi)).trans
        (typeName_suffix ht)).trans (modifiers_suffix hm)
  | case7 => cases h
  | case8 =>
      rename_i hm _ _ ht _ _ hi _ _ _ hclose
      cases h
      exact (((expect_suffix hclose).trans (identifier_suffix hi)).trans
        (typeName_suffix ht)).trans (modifiers_suffix hm)

theorem recordComponents_suffix {fields : List FieldDecl}
    (h : recordComponents ts = .ok (fields, rest)) : rest <:+ ts := by
  obtain ⟨after, hopen, hlist⟩ := recordComponents_eq_ok h
  exact (recordComponentsFrom_suffix hlist).trans (expect_suffix hopen)

theorem typeKind_suffix {kind : TypeKind} (h : typeKind ts = .ok (kind, rest)) : rest <:+ ts := by
  obtain ⟨word, line, rfl, -⟩ | ⟨line, after, rfl, -, rfl⟩ := typeKind_eq_ok h
  · exact List.suffix_cons _ _
  · exact (List.tail_suffix _).trans (List.suffix_cons _ _)

theorem openBody_suffix {name : String} (h : openBody name ts = .ok rest) : rest <:+ ts := by
  fun_induction openBody name ts with
  | case1 => cases h
  | case2 => cases h; exact List.suffix_cons _ _
  | case3 => rename_i ih; exact (ih h).trans (List.suffix_cons _ _)

theorem enumConstants_suffix {closed : Bool} (h : enumConstants ts = .ok (closed, rest)) :
    rest <:+ ts := by
  fun_induction enumConstants ts with
  | case1 => cases h
  | case2 => cases h; exact List.suffix_cons _ _
  | case3 => cases h; exact List.suffix_cons _ _
  | case4 => cases h
  | case5 => rename_i hskip ih; exact (ih h).trans (skipBracketed_suffix hskip)
  | case6 => cases h
  | case7 => rename_i hskip ih; exact (ih h).trans (skipBracketed_suffix hskip)
  | case8 => rename_i ih; exact (ih h).trans (List.suffix_cons _ _)

theorem superclass?_suffix {kind : TypeKind} {name : Option String}
    (h : superclass? kind ts = .ok (name, rest)) : rest <:+ ts := by
  obtain ⟨-, type, htype, -⟩ | ⟨-, -, rfl⟩ := superclass?_eq_ok h
  · exact (typeName_suffix htype).trans (List.tail_suffix _)
  · exact List.suffix_rfl

theorem components_suffix {kind : TypeKind} {fields : List FieldDecl}
    (h : components kind ts = .ok (fields, rest)) : rest <:+ ts := by
  obtain ⟨-, hlist⟩ | ⟨-, -, rfl⟩ := components_eq_ok h
  · exact recordComponents_suffix hlist
  · exact List.suffix_rfl

theorem typeStart_suffix {start : TypeStart} {closed : Bool}
    (h : typeStart ts = .ok ((start, closed), rest)) : rest <:+ ts := by
  obtain ⟨ts₁, ts₂, ts₃, ts₄, ts₅, ts₆, hkind, hname, hparameters, hcomponents, hsuper, hopen,
    hconstants⟩ := typeStart_eq_ok h
  have hrest : rest <:+ ts₆ := by
    obtain ⟨-, hconstants⟩ | ⟨-, -, rfl⟩ := hconstants
    · exact enumConstants_suffix hconstants
    · exact List.suffix_rfl
  calc rest <:+ ts₆ := hrest
    _ <:+ ts₅ := openBody_suffix hopen
    _ <:+ ts₄ := superclass?_suffix hsuper
    _ <:+ ts₃ := components_suffix hcomponents
    _ <:+ ts₂ := skipOptional_suffix hparameters
    _ <:+ ts₁ := identifier_suffix hname
    _ <:+ ts := typeKind_suffix hkind

theorem methodRest_suffix (h : methodRest ts = .ok rest) : rest <:+ ts := by
  fun_induction methodRest ts with
  | case1 => cases h
  | case2 => cases h; exact List.suffix_cons _ _
  | case3 => exact skipBracketed_suffix h
  | case4 => cases h
  | case5 => rename_i hskip ih; exact (ih h).trans (skipBracketed_suffix hskip)
  | case6 => rename_i ih; exact (ih h).trans (List.suffix_cons _ _)

theorem method_suffix (h : method ts = .ok rest) : rest <:+ ts := by
  obtain ⟨after, hparameters, hrest⟩ := method_eq_ok h
  exact (methodRest_suffix hrest).trans (skipBracketed_suffix hparameters)

theorem skipInitializer_suffix (h : skipInitializer ts = .ok rest) : rest <:+ ts := by
  fun_induction skipInitializer ts with
  | case1 => cases h
  | case2 => cases h; exact List.suffix_rfl
  | case3 => cases h; exact List.suffix_rfl
  | case4 => rename_i ih; exact (ih h).trans (List.suffix_cons _ _)
  | case5 => cases h
  | case6 => rename_i hskip ih; exact (ih h).trans (skipBracketed_suffix hskip)
  | case7 => cases h
  | case8 => rename_i hskip ih; exact (ih h).trans (skipBracketed_suffix hskip)
  | case9 => cases h
  | case10 => rename_i hskip ih; exact (ih h).trans (skipBracketed_suffix hskip)
  | case11 => rename_i ih; exact (ih h).trans (List.suffix_cons _ _)

theorem optionalInitializer_suffix (h : optionalInitializer ts = .ok rest) : rest <:+ ts := by
  rcases optionalInitializer_eq_ok h with ⟨-, hskip⟩ | ⟨-, rfl⟩
  · exact (skipInitializer_suffix hskip).trans (List.tail_suffix _)
  · exact List.suffix_rfl

theorem declarators_suffix {name : String} {names : List String}
    (h : declarators name ts = .ok (names, rest)) : rest <:+ ts := by
  fun_induction declarators name ts generalizing names rest with
  | case1 => cases h
  | case2 => cases h
  | case3 => cases h
  | case4 name ts _ hinitializer _ _ _ hnext _ _ hrest ih =>
      cases h
      exact ((((ih hrest).trans (identifier_suffix hnext)).trans (List.tail_suffix _)).trans
        (optionalInitializer_suffix hinitializer)).trans (skipDimensions_suffix ts)
  | case5 => cases h
  | case6 name ts _ hinitializer _ _ _ hend =>
      cases h
      exact ((expect_suffix hend).trans (optionalInitializer_suffix hinitializer)).trans
        (skipDimensions_suffix ts)

theorem methodOrFields_suffix {kind : TypeKind} {m : Modifiers} {fields : List FieldDecl}
    (h : methodOrFields kind m ts = .ok (fields, rest)) : rest <:+ ts := by
  cases methodOrFields_eq_ok_iff.mp h with
  | constructor hparameters htype _ hmethod =>
      have htyped := (typeName_suffix htype).trans (skipOptional_suffix hparameters)
      exact (method_suffix hmethod).trans htyped
  | method hparameters htype _ hname _ hmethod =>
      have htyped := (typeName_suffix htype).trans (skipOptional_suffix hparameters)
      exact ((method_suffix hmethod).trans (identifier_suffix hname)).trans htyped
  | fields hparameters htype _ hname _ hnames =>
      have htyped := (typeName_suffix htype).trans (skipOptional_suffix hparameters)
      exact ((declarators_suffix hnames).trans (identifier_suffix hname)).trans htyped

theorem member_suffix {kind : TypeKind} {name : String} {m : Member}
    (h : member kind name ts = .ok (m, rest)) : rest <:+ ts := by
  cases member_eq_ok_iff.mp h with
  | initializer hmodifiers _ hblock =>
      exact (skipBracketed_suffix hblock).trans (modifiers_suffix hmodifiers)
  | compact hmodifiers _ _ hblock =>
      have hskipped := (skipBracketed_suffix hblock).trans (List.tail_suffix _)
      exact hskipped.trans (modifiers_suffix hmodifiers)
  | type hmodifiers _ _ _ hstart =>
      exact (typeStart_suffix hstart).trans (modifiers_suffix hmodifiers)
  | fields hmodifiers _ _ _ hfields =>
      exact (methodOrFields_suffix hfields).trans (modifiers_suffix hmodifiers)

/-- By induction along the reader: members and nested bodies are taken one after another. -/
theorem typeBody_suffix {kind : TypeKind} {name : String} {body : TypeBody} {after : Shorter ts}
    (h : typeBody kind name ts = .ok (body, after)) : after.1 <:+ ts := by
  fun_induction typeBody kind name ts generalizing body with
  | case1 => cases h
  | case2 => cases h; exact List.suffix_cons _ _
  | case3 => cases h
  | case4 =>
      rename_i hbody ih
      cases h
      exact (ih hbody).trans (List.suffix_cons _ _)
  | case5 => cases h
  | case6 => cases h
  | case7 =>
      rename_i hmember _ _ _ _ hbody ih
      cases h
      exact (ih hbody).trans (member_suffix hmember)
  | case8 => cases h
  | case9 =>
      rename_i hmember _ _ _ _ hbody ih
      cases h
      exact (ih hbody).trans (member_suffix hmember)
  | case10 => cases h
  | case11 => cases h
  | case12 =>
      rename_i hmember _ _ _ _ hinner _ _ _ hbody ihinner ihbody
      cases h
      exact ((ihbody hbody).trans (ihinner hinner)).trans (member_suffix hmember)

theorem typeDecl_suffix {t : TypeDecl} (h : typeDecl ts = .ok (t, rest)) : rest <:+ ts := by
  obtain ⟨_, hstart, -⟩ | ⟨_, _, _, _, hstart, hbody, -, rfl⟩ := typeDecl_eq_ok h
  · exact typeStart_suffix hstart
  · exact (typeBody_suffix hbody).trans (typeStart_suffix hstart)

theorem modifiedType_suffix {t : TypeDecl} (h : modifiedType ts = .ok (t, rest)) :
    rest <:+ ts := by
  obtain ⟨m, after, hmodifiers, hdecl⟩ := modifiedType_eq_ok h
  exact (typeDecl_suffix hdecl).trans (modifiers_suffix hmodifiers)

theorem packageDecl_suffix {package : Option String} (h : packageDecl ts = .ok (package, rest)) :
    rest <:+ ts := by
  obtain ⟨m, ts₁, hmodifiers, ⟨-, name, ts₂, hname, hend, -⟩ | ⟨-, -, rfl⟩⟩ := packageDecl_eq_ok h
  · calc rest <:+ ts₂ := expect_suffix hend
      _ <:+ ts₁.tail := qualifiedName_suffix hname
      _ <:+ ts₁ := List.tail_suffix _
      _ <:+ ts := modifiers_suffix hmodifiers
  · exact modifiers_suffix hmodifiers

theorem importStar_suffix (ts : Tokens) : (importStar ts).2 <:+ ts := by
  unfold importStar
  split
  · split
    · exact (List.tail_suffix _).trans (List.tail_suffix _)
    · exact List.tail_suffix _
  · exact List.suffix_rfl

theorem importStatic_suffix (ts : Tokens) : (importStatic ts).2 <:+ ts := by
  unfold importStatic
  split
  · exact List.tail_suffix _
  · exact List.suffix_rfl

theorem importDecl_suffix {i : Import} (h : importDecl ts = .ok (i, rest)) : rest <:+ ts := by
  obtain ⟨path, after, hpath, hend, -⟩ := importDecl_eq_ok h
  calc rest <:+ (importStar after).2 := expect_suffix hend
    _ <:+ after := importStar_suffix after
    _ <:+ (importStatic ts).2 := qualifiedName_suffix hpath
    _ <:+ ts := importStatic_suffix ts

theorem imports_suffix {is : List Import} (h : imports ts = .ok (is, rest)) : rest <:+ ts := by
  fun_induction imports ts generalizing is rest with
  | case1 => cases h
  | case2 => cases h
  | case3 =>
      rename_i hdecl _ _ hrest ih
      cases h
      exact ((ih hrest).trans (importDecl_suffix hdecl)).trans (List.tail_suffix _)
  | case4 => cases h; exact List.suffix_rfl

end WireMapper.Java
