import WireMapper.Proofs.Java.Parser.Suffix
import WireMapper.Proofs.Java.Parser.Site

/-!
Where faults arise, and the lines they are reported on. A fault without a token arises at the end of
the source. A fault that reports a token arises at that token, and so on its line, save for one that
finds no type declaration: the token it reports is taken before the fault arises, which is then on
the line of the token after it.
-/

namespace WireMapper.Java

/-- The token that the message of a fault reports as found. -/
def ParseFault.found? : ParseFault → Option Token
  | expected _ found? => found?
  | expectedIdentifier found? => found?
  | expectedTypeNotWord word => some (.ident word)
  | expectedType found? => found?
  | _ => none

/-- Whether the token that the fault reports was taken before the fault arose: it was read as the
start of a type declaration. -/
def ParseFault.takesFound : ParseFault → Bool
  | expectedTypeNotWord _ => true
  | expectedType _ => true
  | _ => false

/-- The failure arises among the tokens: at their end, or at the token it reports, or behind that
token if it was taken. -/
inductive ArisesIn (ts : Tokens) : Failure → Prop where
  | atEnd {fault : ParseFault} (hfound : fault.found? = none) : ArisesIn ts ⟨fault, []⟩
  | atToken {fault : ParseFault} {t : PlacedToken} {after : Tokens}
      (hfound : fault.found? = some t.token) (htaken : fault.takesFound = false)
      (hsuffix : t :: after <:+ ts) : ArisesIn ts ⟨fault, t :: after⟩
  | behindToken {fault : ParseFault} {t : PlacedToken} {after : Tokens}
      (hfound : fault.found? = some t.token) (htaken : fault.takesFound = true)
      (hsuffix : t :: after <:+ ts) : ArisesIn ts ⟨fault, after⟩

variable {ts rest : Tokens} {f : Failure}

/-- A failure of a reader is one among the tokens that were read before it as well. -/
theorem ArisesIn.of_suffix (h : ArisesIn rest f) (hsuffix : rest <:+ ts) : ArisesIn ts f := by
  cases h with
  | atEnd hfound => exact .atEnd hfound
  | atToken hfound htaken h => exact .atToken hfound htaken (h.trans hsuffix)
  | behindToken hfound htaken h => exact .behindToken hfound htaken (h.trans hsuffix)

/-- A fault that reports the next token, and does not take it. -/
theorem arisesIn_next {fault : ParseFault} (hfound : fault.found? = next? ts)
    (htaken : fault.takesFound = false) : ArisesIn ts ⟨fault, ts⟩ := by
  cases ts with
  | nil => exact .atEnd hfound
  | cons t ts => exact .atToken hfound htaken List.suffix_rfl

theorem expect_arises {token : Token} (h : expect token ts = .error f) : ArisesIn ts f := by
  unfold expect at h
  split at h
  · cases h
  · cases h
    exact arisesIn_next rfl rfl

theorem identifier_arises (h : identifier ts = .error f) : ArisesIn ts f := by
  unfold identifier at h
  split at h
  · cases h
  · cases h
    exact arisesIn_next rfl rfl

theorem qualifiedName_arises (h : qualifiedName ts = .error f) : ArisesIn ts f := by
  unfold qualifiedName at h
  split at h
  · rename_i hfirst
    cases h
    exact identifier_arises hfirst
  · cases h

/-- A bracket without its partner is missed at the end of the source. -/
theorem closeBracket_arises {opening closing : Token} {depth : Nat}
    (h : closeBracket opening closing depth ts = .error f) : ArisesIn ts f := by
  fun_induction closeBracket opening closing depth ts with
  | case1 => cases h; exact .atEnd rfl
  | case2 => rename_i ih; exact (ih h).of_suffix (List.suffix_cons _ _)
  | case3 => cases h
  | case4 => rename_i ih; exact (ih h).of_suffix (List.suffix_cons _ _)
  | case5 => rename_i ih; exact (ih h).of_suffix (List.suffix_cons _ _)

theorem skipBracketed_arises {opening closing : Token}
    (h : skipBracketed opening closing ts = .error f) : ArisesIn ts f := by
  unfold skipBracketed at h
  split at h
  · rename_i hopen
    cases h
    exact expect_arises hopen
  · rename_i hopen
    exact (closeBracket_arises h).of_suffix (expect_suffix hopen)

theorem skipOptional_arises {opening closing : Token}
    (h : skipOptional opening closing ts = .error f) : ArisesIn ts f := by
  unfold skipOptional at h
  split at h
  · exact skipBracketed_arises h
  · cases h

theorem skipAnnotationUse_arises (h : skipAnnotationUse ts = .error f) : ArisesIn ts f := by
  unfold skipAnnotationUse at h
  split at h
  · rename_i hsign
    cases h
    exact expect_arises hsign
  rename_i hsign
  split at h
  · rename_i hname
    cases h
    exact (qualifiedName_arises hname).of_suffix (expect_suffix hsign)
  · rename_i hname
    exact (skipOptional_arises h).of_suffix
      ((qualifiedName_suffix hname).trans (expect_suffix hsign))

theorem modifiersFrom_arises {m : Modifiers} (h : modifiersFrom m ts = .error f) :
    ArisesIn ts f := by
  fun_induction modifiersFrom m ts with
  | case1 => cases h
  | case2 => cases h
  | case3 => rename_i hskip; cases h; exact skipAnnotationUse_arises hskip
  | case4 => rename_i hskip ih; exact (ih h).of_suffix (skipAnnotationUse_suffix hskip)
  | case5 => rename_i ih; exact (ih h).of_suffix (List.suffix_cons _ _)
  | case6 => rename_i hafter ih; exact (ih h).of_suffix (afterNonSealed?_suffix hafter)
  | case7 => cases h
  | case8 => cases h

theorem modifiers_arises (h : modifiers ts = .error f) : ArisesIn ts f :=
  modifiersFrom_arises h

theorem typeSegments_arises (h : typeSegments ts = .error f) : ArisesIn ts f := by
  fun_induction typeSegments ts with
  | case1 =>
      rename_i hskip
      cases h
      exact (skipOptional_arises hskip).of_suffix ⟨[_, _], rfl⟩
  | case2 =>
      rename_i hskip _ hrest ih
      cases h
      exact ((ih hrest).of_suffix (skipOptional_suffix hskip)).of_suffix ⟨[_, _], rfl⟩
  | case3 => cases h
  | case4 => cases h

theorem typeName_arises (h : typeName ts = .error f) : ArisesIn ts f := by
  unfold typeName at h
  split at h
  · rename_i hmodifiers
    cases h
    exact modifiers_arises hmodifiers
  rename_i hmodifiers
  have hstart := modifiers_suffix hmodifiers
  split at h
  · rename_i hname
    cases h
    exact (qualifiedName_arises hname).of_suffix hstart
  rename_i hname
  have hnamed := (qualifiedName_suffix hname).trans hstart
  split at h
  · rename_i harguments
    cases h
    exact (skipOptional_arises harguments).of_suffix hnamed
  rename_i harguments
  split at h
  · rename_i hsegments
    cases h
    exact (typeSegments_arises hsegments).of_suffix ((skipOptional_suffix harguments).trans hnamed)
  · cases h

theorem recordComponentsFrom_arises (h : recordComponentsFrom ts = .error f) : ArisesIn ts f := by
  fun_induction recordComponentsFrom ts with
  | case1 => cases h
  | case2 => rename_i hm; cases h; exact modifiers_arises hm
  | case3 =>
      rename_i hm _ ht
      cases h
      exact (typeName_arises ht).of_suffix (modifiers_suffix hm)
  | case4 =>
      rename_i hm _ _ ht _ hi
      cases h
      exact (identifier_arises hi).of_suffix ((typeName_suffix ht).trans (modifiers_suffix hm))
  | case5 =>
      rename_i hm _ _ ht _ _ hi _ _ hrest ih
      cases h
      exact (ih hrest).of_suffix ((((List.tail_suffix _).trans (identifier_suffix hi)).trans
        (typeName_suffix ht)).trans (modifiers_suffix hm))
  | case6 => cases h
  | case7 =>
      rename_i hm _ _ ht _ _ hi _ _ hclose
      cases h
      exact (expect_arises hclose).of_suffix (((identifier_suffix hi).trans
        (typeName_suffix ht)).trans (modifiers_suffix hm))
  | case8 => cases h

theorem recordComponents_arises (h : recordComponents ts = .error f) : ArisesIn ts f := by
  unfold recordComponents at h
  split at h
  · rename_i hopen
    cases h
    exact expect_arises hopen
  · rename_i hopen
    exact (recordComponentsFrom_arises h).of_suffix (expect_suffix hopen)

theorem components_arises {kind : TypeKind} (h : components kind ts = .error f) :
    ArisesIn ts f := by
  unfold components at h
  split at h
  · exact recordComponents_arises h
  · cases h

/-- The only faults that come after the token they report. -/
theorem typeKind_arises (h : typeKind ts = .error f) : ArisesIn ts f := by
  unfold typeKind at h
  split at h
  · cases h
    exact .atEnd rfl
  split at h
  · cases h
  · rename_i hword
    split at h
    · cases h
    · cases h
      exact .behindToken (congrArg some hword.symm) rfl List.suffix_rfl
  · cases h
    exact .behindToken rfl rfl List.suffix_rfl

theorem openBody_arises {name : String} (h : openBody name ts = .error f) : ArisesIn ts f := by
  fun_induction openBody name ts with
  | case1 => cases h; exact .atEnd rfl
  | case2 => cases h
  | case3 => rename_i ih; exact (ih h).of_suffix (List.suffix_cons _ _)

theorem enumConstants_arises (h : enumConstants ts = .error f) : ArisesIn ts f := by
  fun_induction enumConstants ts with
  | case1 => cases h; exact .atEnd rfl
  | case2 => cases h
  | case3 => cases h
  | case4 => rename_i hskip; cases h; exact skipBracketed_arises hskip
  | case5 => rename_i hskip ih; exact (ih h).of_suffix (skipBracketed_suffix hskip)
  | case6 => rename_i hskip; cases h; exact skipBracketed_arises hskip
  | case7 => rename_i hskip ih; exact (ih h).of_suffix (skipBracketed_suffix hskip)
  | case8 => rename_i ih; exact (ih h).of_suffix (List.suffix_cons _ _)

theorem superclass?_arises {kind : TypeKind} (h : superclass? kind ts = .error f) :
    ArisesIn ts f := by
  unfold superclass? at h
  split at h
  · split at h
    · rename_i hname
      cases h
      exact (typeName_arises hname).of_suffix (List.tail_suffix _)
    · cases h
  · cases h

theorem typeStart_arises (h : typeStart ts = .error f) : ArisesIn ts f := by
  unfold typeStart at h
  split at h
  · rename_i hkind
    cases h
    exact typeKind_arises hkind
  rename_i hkind
  have hword := typeKind_suffix hkind
  split at h
  · rename_i hname
    cases h
    exact (identifier_arises hname).of_suffix hword
  rename_i hname
  have hnamed := (identifier_suffix hname).trans hword
  split at h
  · rename_i hparameters
    cases h
    exact (skipOptional_arises hparameters).of_suffix hnamed
  rename_i hparameters
  have hgeneric := (skipOptional_suffix hparameters).trans hnamed
  split at h
  · rename_i hcomponents
    cases h
    exact (components_arises hcomponents).of_suffix hgeneric
  rename_i hcomponents
  have hheaded := (components_suffix hcomponents).trans hgeneric
  split at h
  · rename_i hsuper
    cases h
    exact (superclass?_arises hsuper).of_suffix hheaded
  rename_i hsuper
  have hextended := (superclass?_suffix hsuper).trans hheaded
  split at h
  · rename_i hopen
    cases h
    exact (openBody_arises hopen).of_suffix hextended
  rename_i hopen
  split at h
  · split at h
    · rename_i hconstants
      cases h
      exact (enumConstants_arises hconstants).of_suffix ((openBody_suffix hopen).trans hextended)
    · cases h
  · cases h

theorem methodRest_arises (h : methodRest ts = .error f) : ArisesIn ts f := by
  fun_induction methodRest ts with
  | case1 => cases h; exact .atEnd rfl
  | case2 => cases h
  | case3 => exact skipBracketed_arises h
  | case4 => rename_i hskip; cases h; exact skipBracketed_arises hskip
  | case5 => rename_i hskip ih; exact (ih h).of_suffix (skipBracketed_suffix hskip)
  | case6 => rename_i ih; exact (ih h).of_suffix (List.suffix_cons _ _)

theorem method_arises (h : method ts = .error f) : ArisesIn ts f := by
  unfold method at h
  split at h
  · rename_i hparameters
    cases h
    exact skipBracketed_arises hparameters
  · rename_i hparameters
    exact (methodRest_arises h).of_suffix (skipBracketed_suffix hparameters)

theorem skipInitializer_arises (h : skipInitializer ts = .error f) : ArisesIn ts f := by
  fun_induction skipInitializer ts with
  | case1 => cases h; exact .atEnd rfl
  | case2 => cases h
  | case3 => cases h
  | case4 => rename_i ih; exact (ih h).of_suffix (List.suffix_cons _ _)
  | case5 => rename_i hskip; cases h; exact skipBracketed_arises hskip
  | case6 => rename_i hskip ih; exact (ih h).of_suffix (skipBracketed_suffix hskip)
  | case7 => rename_i hskip; cases h; exact skipBracketed_arises hskip
  | case8 => rename_i hskip ih; exact (ih h).of_suffix (skipBracketed_suffix hskip)
  | case9 => rename_i hskip; cases h; exact skipBracketed_arises hskip
  | case10 => rename_i hskip ih; exact (ih h).of_suffix (skipBracketed_suffix hskip)
  | case11 => rename_i ih; exact (ih h).of_suffix (List.suffix_cons _ _)

theorem optionalInitializer_arises (h : optionalInitializer ts = .error f) : ArisesIn ts f := by
  unfold optionalInitializer at h
  split at h
  · exact (skipInitializer_arises h).of_suffix (List.tail_suffix _)
  · cases h

theorem declarators_arises {name : String} (h : declarators name ts = .error f) :
    ArisesIn ts f := by
  fun_induction declarators name ts with
  | case1 name ts _ hinitializer =>
      cases h
      exact (optionalInitializer_arises hinitializer).of_suffix (skipDimensions_suffix ts)
  | case2 name ts _ hinitializer _ _ hnext =>
      cases h
      exact (identifier_arises hnext).of_suffix (((List.tail_suffix _).trans
        (optionalInitializer_suffix hinitializer)).trans (skipDimensions_suffix ts))
  | case3 name ts _ hinitializer _ _ _ hnext _ hrest ih =>
      cases h
      exact (ih hrest).of_suffix ((((identifier_suffix hnext).trans (List.tail_suffix _)).trans
        (optionalInitializer_suffix hinitializer)).trans (skipDimensions_suffix ts))
  | case4 => cases h
  | case5 name ts _ hinitializer _ _ hend =>
      cases h
      exact (expect_arises hend).of_suffix
        ((optionalInitializer_suffix hinitializer).trans (skipDimensions_suffix ts))
  | case6 => cases h

theorem methodOrFields_arises {kind : TypeKind} {m : Modifiers}
    (h : methodOrFields kind m ts = .error f) : ArisesIn ts f := by
  unfold methodOrFields at h
  split at h
  · rename_i hparameters
    cases h
    exact skipOptional_arises hparameters
  rename_i hparameters
  have hgeneric := skipOptional_suffix hparameters
  split at h
  · rename_i htype
    cases h
    exact (typeName_arises htype).of_suffix hgeneric
  rename_i htype
  have htyped := (typeName_suffix htype).trans hgeneric
  split at h
  · split at h
    · rename_i hmethod
      cases h
      exact (method_arises hmethod).of_suffix htyped
    · cases h
  split at h
  · rename_i hname
    cases h
    exact (identifier_arises hname).of_suffix htyped
  rename_i hname
  have hnamed := (identifier_suffix hname).trans htyped
  split at h
  · split at h
    · rename_i hmethod
      cases h
      exact (method_arises hmethod).of_suffix hnamed
    · cases h
  split at h
  · rename_i hnames
    cases h
    exact (declarators_arises hnames).of_suffix hnamed
  · cases h

theorem member_arises {kind : TypeKind} {name : String} (h : member kind name ts = .error f) :
    ArisesIn ts f := by
  unfold member at h
  split at h
  · rename_i hmodifiers
    cases h
    exact modifiers_arises hmodifiers
  rename_i hmodifiers
  have hstart := modifiers_suffix hmodifiers
  split at h
  · split at h
    · rename_i hskip
      cases h
      exact (skipBracketed_arises hskip).of_suffix hstart
    · cases h
  split at h
  · split at h
    · rename_i hskip
      cases h
      exact (skipBracketed_arises hskip).of_suffix ((List.tail_suffix _).trans hstart)
    · cases h
  split at h
  · split at h
    · rename_i htype
      cases h
      exact (typeStart_arises htype).of_suffix hstart
    · cases h
  split at h
  · rename_i hfields
    cases h
    exact (methodOrFields_arises hfields).of_suffix hstart
  · cases h

/-- The induction follows the reader, from member to member and into nested types. -/
theorem typeBody_arises {kind : TypeKind} {name : String} (h : typeBody kind name ts = .error f) :
    ArisesIn ts f := by
  fun_induction typeBody kind name ts with
  | case1 => cases h; exact .atEnd rfl
  | case2 => cases h
  | case3 =>
      rename_i hbody ih
      cases h
      exact (ih hbody).of_suffix (List.suffix_cons _ _)
  | case4 => cases h
  | case5 =>
      rename_i hmember
      cases h
      exact member_arises hmember
  | case6 =>
      rename_i hmember _ _ hbody ih
      cases h
      exact (ih hbody).of_suffix (member_suffix hmember)
  | case7 => cases h
  | case8 =>
      rename_i hmember _ _ hbody ih
      cases h
      exact (ih hbody).of_suffix (member_suffix hmember)
  | case9 => cases h
  | case10 =>
      rename_i hmember _ _ hinner ih
      cases h
      exact (ih hinner).of_suffix (member_suffix hmember)
  | case11 =>
      rename_i hmember _ _ _ _ hinner _ hbody _ ih
      cases h
      exact ((ih hbody).of_suffix (typeBody_suffix hinner)).of_suffix (member_suffix hmember)
  | case12 => cases h

/-- A fault in a declaration arises at its token, behind it, or at the end. -/
theorem typeDecl_arises (h : typeDecl ts = .error f) : ArisesIn ts f := by
  unfold typeDecl at h
  split at h
  · rename_i hstart
    cases h
    exact typeStart_arises hstart
  · cases h
  · rename_i hstart
    split at h
    · rename_i hbody
      cases h
      exact (typeBody_arises hbody).of_suffix (typeStart_suffix hstart)
    · cases h

theorem modifiedType_arises (h : modifiedType ts = .error f) : ArisesIn ts f := by
  unfold modifiedType at h
  split at h
  · rename_i hmodifiers
    cases h
    exact modifiers_arises hmodifiers
  · rename_i hmodifiers
    exact (typeDecl_arises h).of_suffix (modifiers_suffix hmodifiers)

theorem types_arises (h : types ts = .error f) : ArisesIn ts f := by
  fun_induction types ts with
  | case1 => cases h
  | case2 => rename_i ih; exact (ih h).of_suffix (List.suffix_cons _ _)
  | case3 => rename_i hdecl; cases h; exact modifiedType_arises hdecl
  | case4 =>
      rename_i hdecl _ hrest ih
      cases h
      exact (ih hrest).of_suffix (modifiedType_suffix hdecl)
  | case5 => cases h

theorem packageDecl_arises (h : packageDecl ts = .error f) : ArisesIn ts f := by
  unfold packageDecl at h
  split at h
  · rename_i hmodifiers
    cases h
    exact modifiers_arises hmodifiers
  rename_i hmodifiers
  have hstart := modifiers_suffix hmodifiers
  split at h
  · split at h
    · rename_i hname
      cases h
      exact (qualifiedName_arises hname).of_suffix ((List.tail_suffix _).trans hstart)
    rename_i hname
    split at h
    · rename_i hend
      cases h
      exact (expect_arises hend).of_suffix
        (((qualifiedName_suffix hname).trans (List.tail_suffix _)).trans hstart)
    · cases h
  · cases h

theorem importDecl_arises (h : importDecl ts = .error f) : ArisesIn ts f := by
  unfold importDecl at h
  split at h
  · rename_i hpath
    cases h
    exact (qualifiedName_arises hpath).of_suffix (importStatic_suffix ts)
  rename_i hpath
  split at h
  · rename_i hend
    cases h
    exact (expect_arises hend).of_suffix
      (((importStar_suffix _).trans (qualifiedName_suffix hpath)).trans
      (importStatic_suffix ts))
  · cases h

theorem imports_arises (h : imports ts = .error f) : ArisesIn ts f := by
  fun_induction imports ts with
  | case1 =>
      rename_i hdecl
      cases h
      exact (importDecl_arises hdecl).of_suffix (List.tail_suffix _)
  | case2 =>
      rename_i hdecl _ hrest ih
      cases h
      exact ((ih hrest).of_suffix (importDecl_suffix hdecl)).of_suffix (List.tail_suffix _)
  | case3 => cases h
  | case4 => cases h

/-- Every fault of a unit arises among its tokens. -/
theorem compilationUnit_arises (h : compilationUnit ts = .error f) : ArisesIn ts f := by
  unfold compilationUnit at h
  split at h
  · rename_i hpackage
    cases h
    exact packageDecl_arises hpackage
  rename_i hpackage
  have hstart := packageDecl_suffix hpackage
  split at h
  · rename_i himports
    cases h
    exact (imports_arises himports).of_suffix hstart
  rename_i himports
  split at h
  · rename_i htypes
    cases h
    exact (types_arises htypes).of_suffix ((imports_suffix himports).trans hstart)
  · cases h

/-- The failure that an error of a whole source comes from. -/
theorem parse_eq_error {source : String} {e : ParseError} (hscan : scan source = .ok ts)
    (h : CompilationUnit.parse source = .error e) :
    ∃ f, compilationUnit ts = .error f ∧ e.fault = f.fault ∧ e.line = f.line ts := by
  unfold CompilationUnit.parse at h
  rw [hscan] at h
  dsimp only at h
  split at h
  · rename_i f hunit
    cases h
    exact ⟨f, hunit, rfl, rfl⟩
  · cases h

/-- Behind a token a fault is on the line of the next token, or of this one if it is the last. -/
theorem line_behind {fault : ParseFault} {t : PlacedToken} {before after : Tokens}
    (hts : ts = before ++ t :: after) :
    Failure.line ⟨fault, after⟩ ts = (after.head?.map (·.line)).getD t.line := by
  cases after with
  | nil => simp [Failure.line, hts]
  | cons next after => rfl

/-- Faults stand where they are reported. Where source of whole tokens does not parse and the
message reports no token, the fault is at the end and on the line of the last token, or on the first
line if there is none. Where it reports a token, that token is in the source, and the fault is at
it, unless the token was taken for the start of a type declaration: then the fault is behind it, and
on its line exactly if the next token is, if there is one. -/
theorem fault_on_line_of_found {source : String} {ts : Tokens} {e : ParseError}
    (hscan : scan source = .ok ts) (h : CompilationUnit.parse source = .error e) :
    (e.fault.found? = none →
      compilationUnit ts = .error ⟨e.fault, []⟩ ∧ e.line = (ts.getLast?.map (·.line)).getD 1) ∧
    ∀ token, e.fault.found? = some token →
      ∃ before t after, ts = before ++ t :: after ∧ t.token = token ∧
        compilationUnit ts = .error ⟨e.fault, if e.fault.takesFound then after else t :: after⟩ ∧
        (e.line = t.line ↔ e.fault.takesFound = false ∨
          ∀ next, after.head? = some next → next.line = t.line) := by
  obtain ⟨f, hunit, hfault, hline⟩ := parse_eq_error hscan h
  have harises := compilationUnit_arises hunit
  rw [hfault, hline]
  cases harises with
  | atEnd hfound =>
      refine ⟨fun _ => ⟨hunit, rfl⟩, fun token hsome => ?_⟩
      rw [hfound] at hsome
      cases hsome
  | @atToken fault t after hfound htaken hsuffix =>
      obtain ⟨before, hts⟩ := hsuffix
      refine ⟨fun hnone => absurd (hfound.symm.trans hnone) (Option.some_ne_none _),
        fun token hsome => ?_⟩
      refine ⟨before, t, after, hts.symm, Option.some.inj (hfound.symm.trans hsome), ?_, ?_⟩
      · rw [hunit, htaken]
        rfl
      · exact iff_of_true rfl (Or.inl htaken)
  | @behindToken fault t after hfound htaken hsuffix =>
      obtain ⟨before, hts⟩ := hsuffix
      refine ⟨fun hnone => absurd (hfound.symm.trans hnone) (Option.some_ne_none _),
        fun token hsome => ?_⟩
      refine ⟨before, t, after, hts.symm, Option.some.inj (hfound.symm.trans hsome), ?_, ?_⟩
      · rw [hunit, htaken]
        rfl
      · rw [line_behind hts.symm]
        cases after <;> simp [htaken]

/-- A package declaration that is not ended before the next line. -/
def unendedPackage : Tokens :=
  [⟨.ident "package", 1⟩, ⟨.ident "p", 1⟩, ⟨.literal, 2⟩, ⟨.semicolon, 2⟩]

/-- The missing semicolon is missed at the literal on the second line. -/
theorem fault_on_line_of_found_package :
    scan "package p\n5;" = .ok unendedPackage ∧
      CompilationUnit.parse "package p\n5;" = .error ⟨2, .expected .semicolon (some .literal)⟩ ∧
      ∃ before t after, unendedPackage = before ++ t :: after ∧ t.token = .literal ∧
        t.line = 2 := by
  have hscan : scan "package p\n5;" = .ok unendedPackage := by decide +kernel
  have hpackage : packageDecl unendedPackage =
      .error ⟨.expected .semicolon (some .literal), [⟨.literal, 2⟩, ⟨.semicolon, 2⟩]⟩ := by
    decide +kernel
  have hparse : CompilationUnit.parse "package p\n5;" =
      .error ⟨2, .expected .semicolon (some .literal)⟩ := by
    simp only [CompilationUnit.parse, hscan, compilationUnit, hpackage, Failure.line]
    rfl
  obtain ⟨before, t, after, hts, htoken, _, hline⟩ :=
    (fault_on_line_of_found hscan hparse).2 .literal rfl
  exact ⟨hscan, hparse, before, t, after, hts, htoken, (hline.mpr (Or.inl rfl)).symm⟩

/-- A word in place of a type declaration is reported on the line after it, if the source goes on
there. -/
theorem word_reported_on_next_line :
    scan "foo\nbar" = .ok [⟨.ident "foo", 1⟩, ⟨.ident "bar", 2⟩] ∧
      CompilationUnit.parse "foo\nbar" = .error ⟨2, .expectedTypeNotWord "foo"⟩ ∧
      ParseError.message ⟨2, .expectedTypeNotWord "foo"⟩ =
        "line 2: expected type declaration, found foo" := by
  have hscan : scan "foo\nbar" = .ok [⟨.ident "foo", 1⟩, ⟨.ident "bar", 2⟩] := by decide +kernel
  have htypes : types [⟨.ident "foo", 1⟩, ⟨.ident "bar", 2⟩] =
      .error ⟨.expectedTypeNotWord "foo", [⟨.ident "bar", 2⟩]⟩ := by
    have hstart : modifiedStart [⟨.ident "foo", 1⟩, ⟨.ident "bar", 2⟩] =
        .error ⟨.expectedTypeNotWord "foo", [⟨.ident "bar", 2⟩]⟩ := by decide +kernel
    apply types_error (by simp) (by simp [next?])
    rw [modifiedType_eq, hstart]
  have hpackage : packageDecl [⟨.ident "foo", 1⟩, ⟨.ident "bar", 2⟩] =
      .ok (none, [⟨.ident "foo", 1⟩, ⟨.ident "bar", 2⟩]) := by decide +kernel
  have himports : imports [⟨.ident "foo", 1⟩, ⟨.ident "bar", 2⟩] =
      .ok ([], [⟨.ident "foo", 1⟩, ⟨.ident "bar", 2⟩]) := by decide +kernel
  have hparse : CompilationUnit.parse "foo\nbar" = .error ⟨2, .expectedTypeNotWord "foo"⟩ := by
    simp only [CompilationUnit.parse, hscan, compilationUnit, hpackage, himports, htypes,
      Failure.line]
    rfl
  exact ⟨hscan, hparse, by decide +kernel⟩

end WireMapper.Java
