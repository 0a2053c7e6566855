import WireMapper.Java.Parser.TypeName

/-!
Type declarations. A declaration is its start, up to and including the brace that opens the body,
and the body, a sequence of members. A member adds fields or one nested type to the declaration or,
like a method, nothing; what a body holds is put together from its members in order.
-/

namespace WireMapper.Java

structure TypeStart where
  kind : TypeKind
  name : String
  superclass? : Option String
  components : List FieldDecl
deriving DecidableEq, Repr

structure TypeBody where
  fields : List FieldDecl
  nested : List TypeDecl

namespace TypeBody

def empty : TypeBody := ⟨[], []⟩

def append (a b : TypeBody) : TypeBody :=
  ⟨a.fields ++ b.fields, a.nested ++ b.nested⟩

end TypeBody

/-- The declaration with the given body; the components of a record come before its other fields. -/
def TypeStart.withBody (start : TypeStart) (body : TypeBody) : TypeDecl :=
  ⟨start.name, start.kind, start.superclass?, start.components ++ body.fields, body.nested⟩

def TypeKind.ofWord? : String → Option TypeKind
  | "class" => some .class_
  | "interface" => some .interface
  | "enum" => some .enum
  | "record" => some .record
  | _ => none

/-- Takes the word that starts a type declaration. A failure is placed after the token that is no
such word. -/
def typeKind : Tokens → Reading TypeKind
  | [] => .error ⟨.expectedType none, []⟩
  | t :: ts =>
    match t.token with
    | .atSign => .ok (.annotationType, ts.tail)
    | .ident word =>
      match TypeKind.ofWord? word with
      | some kind => .ok (kind, ts)
      | none => .error ⟨.expectedTypeNotWord word, ts⟩
    | token => .error ⟨.expectedType (some token), ts⟩

def openBody (name : String) : Tokens → Except Failure Tokens
  | [] => .error ⟨.missingBody name, []⟩
  | t :: ts => if t.token = .openBrace then .ok ts else openBody name ts

/-- Skips the constants of an enum. The body ends with them, or goes on after a semicolon; which of
the two is the value. -/
def enumConstants (ts : Tokens) : Reading Bool :=
  match ts with
  | [] => .error ⟨.unterminatedEnum, []⟩
  | t :: rest =>
    match t.token with
    | .semicolon => .ok (false, rest)
    | .closeBrace => .ok (true, rest)
    | .openParen =>
      match _h : skipBracketed .openParen .closeParen (t :: rest) with
      | .error e => .error e
      | .ok rest => enumConstants rest
    | .openBrace =>
      match _h : skipBracketed .openBrace .closeBrace (t :: rest) with
      | .error e => .error e
      | .ok rest => enumConstants rest
    | _ => enumConstants rest
termination_by ts.length
decreasing_by
  · exact length_skipBracketed_lt _h
  · exact length_skipBracketed_lt _h
  · simp

def superclass? (kind : TypeKind) (ts : Tokens) : Reading (Option String) :=
  if kind = .class_ ∧ next? ts = some (.ident "extends") then
    match typeName ts.tail with
    | .error e => .error e
    | .ok (name, ts) => .ok (some name, ts)
  else
    .ok (none, ts)

def components (kind : TypeKind) (ts : Tokens) : Reading (List FieldDecl) :=
  if kind = .record then recordComponents ts else .ok ([], ts)

/-- Takes a declaration up to the start of its members. The flag says that there are none: an enum's
body may end with its constants. -/
def typeStart (ts : Tokens) : Reading (TypeStart × Bool) :=
  match typeKind ts with
  | .error e => .error e
  | .ok (kind, ts) =>
    match identifier ts with
    | .error e => .error e
    | .ok (name, ts) =>
      match skipOptional .less .greater ts with
      | .error e => .error e
      | .ok ts =>
        match components kind ts with
        | .error e => .error e
        | .ok (fields, ts) =>
          match superclass? kind ts with
          | .error e => .error e
          | .ok (superclass, ts) =>
            match openBody name ts with
            | .error e => .error e
            | .ok ts =>
              if kind = .enum then
                match enumConstants ts with
                | .error e => .error e
                | .ok (closed, ts) => .ok ((⟨kind, name, superclass, fields⟩, closed), ts)
              else
                .ok ((⟨kind, name, superclass, fields⟩, false), ts)

/-- Whether a type declaration starts here. The word `record` starts one only before a name and a
component list, since it may name a field or a type as well. -/
def atTypeDecl (ts : Tokens) : Bool :=
  match next? ts with
  | some .atSign => second? ts = some (.ident "interface")
  | some (.ident "record") =>
    (second? ts).any Token.isIdent &&
      (next? ts.tail.tail = some .openParen || next? ts.tail.tail = some .less)
  | some (.ident word) => word = "class" || word = "interface" || word = "enum"
  | _ => false

def methodRest (ts : Tokens) : Except Failure Tokens :=
  match ts with
  | [] => .error ⟨.unterminatedMethod, []⟩
  | t :: rest =>
    match t.token with
    | .semicolon => .ok rest
    | .openBrace => skipBracketed .openBrace .closeBrace (t :: rest)
    | .openParen =>
      match _h : skipBracketed .openParen .closeParen (t :: rest) with
      | .error e => .error e
      | .ok rest => methodRest rest
    | _ => methodRest rest
termination_by ts.length
decreasing_by
  · exact length_skipBracketed_lt _h
  · simp

def method (ts : Tokens) : Except Failure Tokens :=
  match skipBracketed .openParen .closeParen ts with
  | .error e => .error e
  | .ok ts => methodRest ts

/-- Whether a further name of a field declaration starts here. -/
def atDeclarator (ts : Tokens) : Bool :=
  (next? ts).any Token.isIdent &&
    (second? ts = some .equals || second? ts = some .comma || second? ts = some .semicolon ||
      second? ts = some .openBracket)

/-- Skips an initializer, up to the semicolon after it or a comma with a further name behind it. -/
def skipInitializer (ts : Tokens) : Except Failure Tokens :=
  match ts with
  | [] => .error ⟨.unterminatedInitializer, []⟩
  | t :: rest =>
    match t.token with
    | .semicolon => .ok (t :: rest)
    | .comma => if atDeclarator rest then .ok (t :: rest) else skipInitializer rest
    | .openParen =>
      match _h : skipBracketed .openParen .closeParen (t :: rest) with
      | .error e => .error e
      | .ok rest => skipInitializer rest
    | .openBrace =>
      match _h : skipBracketed .openBrace .closeBrace (t :: rest) with
      | .error e => .error e
      | .ok rest => skipInitializer rest
    | .openBracket =>
      match _h : skipBracketed .openBracket .closeBracket (t :: rest) with
      | .error e => .error e
      | .ok rest => skipInitializer rest
    | _ => skipInitializer rest
termination_by ts.length
decreasing_by
  · simp
  · exact length_skipBracketed_lt _h
  · exact length_skipBracketed_lt _h
  · exact length_skipBracketed_lt _h
  · simp

def optionalInitializer (ts : Tokens) : Except Failure Tokens :=
  if next? ts = some .equals then skipInitializer ts.tail else .ok ts

theorem length_skipInitializer_le {ts rest : Tokens} (h : skipInitializer ts = .ok rest) :
    rest.length ≤ ts.length := by
  fun_induction skipInitializer ts with
  | case1 => cases h
  | case2 => cases h; simp
  | case3 => cases h; simp
  | case4 => rename_i ih; have := ih h; simp only [List.length_cons]; omega
  | case5 => cases h
  | case6 => rename_i hs ih; have := ih h; have := length_skipBracketed_lt hs; omega
  | case7 => cases h
  | case8 => rename_i hs ih; have := ih h; have := length_skipBracketed_lt hs; omega
  | case9 => cases h
  | case10 => rename_i hs ih; have := ih h; have := length_skipBracketed_lt hs; omega
  | case11 => rename_i ih; have := ih h; simp only [List.length_cons]; omega

/-- Only behind an equals sign is anything skipped. -/
theorem optionalInitializer_eq_ok {ts rest : Tokens} (h : optionalInitializer ts = .ok rest) :
    next? ts = some .equals ∧ skipInitializer ts.tail = .ok rest ∨
      next? ts ≠ some .equals ∧ rest = ts := by
  unfold optionalInitializer at h
  split at h
  · rename_i hequals
    exact .inl ⟨hequals, h⟩
  · rename_i hequals
    cases h
    exact .inr ⟨hequals, rfl⟩

theorem length_optionalInitializer_le {ts rest : Tokens} (h : optionalInitializer ts = .ok rest) :
    rest.length ≤ ts.length := by
  rcases optionalInitializer_eq_ok h with ⟨-, hskip⟩ | ⟨-, rfl⟩
  · have := length_skipInitializer_le hskip
    simp only [List.length_tail] at this
    omega
  · exact Nat.le_refl _

/-- Takes the names of a field declaration that come after the first one, `name`, each with its
array brackets and initializer, and the semicolon at the end. -/
def declarators (name : String) (ts : Tokens) : Reading (List String) :=
  match _h : optionalInitializer (skipDimensions ts) with
  | .error e => .error e
  | .ok rest =>
    if next? rest = some .comma then
      match _hi : identifier rest.tail with
      | .error e => .error e
      | .ok (next, rest) =>
        match declarators next rest with
        | .error e => .error e
        | .ok (names, rest) => .ok (name :: names, rest)
    else
      match expect .semicolon rest with
      | .error e => .error e
      | .ok (_, rest) => .ok ([name], rest)
termination_by ts.length
decreasing_by
  have h1 := length_optionalInitializer_le _h
  have h2 := length_skipDimensions_le ts
  have h3 := length_identifier _hi
  simp only [List.length_tail] at h3
  omega

/-- The visibility of a field with the given modifiers in a type of the given kind. -/
def fieldVisibility (kind : TypeKind) (m : Modifiers) : Visibility :=
  if kind = .interface ∨ kind = .annotationType then .public_ else m.visibility?.getD .package

def fieldIsStatic (kind : TypeKind) (m : Modifiers) : Bool :=
  m.isStatic || kind = .interface

/-- What a member adds to its type: some fields, or the start of a nested type. -/
inductive Member where
  | fields (fields : List FieldDecl)
  | type (start : TypeStart) (closed : Bool)
deriving DecidableEq, Repr

def methodOrFields (kind : TypeKind) (m : Modifiers) (ts : Tokens) : Reading (List FieldDecl) :=
  match skipOptional .less .greater ts with
  | .error e => .error e
  | .ok ts =>
    match typeName ts with
    | .error e => .error e
    | .ok (_, ts) =>
      if next? ts = some .openParen then
        match method ts with
        | .error e => .error e
        | .ok ts => .ok ([], ts)
      else
        match identifier ts with
        | .error e => .error e
        | .ok (name, ts) =>
          if next? ts = some .openParen then
            match method ts with
            | .error e => .error e
            | .ok ts => .ok ([], ts)
          else
            match declarators name ts with
            | .error e => .error e
            | .ok (names, ts) =>
              .ok (names.map (⟨·, fieldVisibility kind m, fieldIsStatic kind m⟩), ts)

/-- Takes one member of a type of the given kind and name. An initializer block and a record's
compact constructor are skipped like methods. -/
def member (kind : TypeKind) (name : String) (ts : Tokens) : Reading Member :=
  match modifiers ts with
  | .error e => .error e
  | .ok (m, ts) =>
    if next? ts = some .openBrace then
      match skipBracketed .openBrace .closeBrace ts with
      | .error e => .error e
      | .ok ts => .ok (.fields [], ts)
    else if kind = .record ∧ next? ts = some (.ident name) ∧ second? ts = some .openBrace then
      match skipBracketed .openBrace .closeBrace ts.tail with
      | .error e => .error e
      | .ok ts => .ok (.fields [], ts)
    else if atTypeDecl ts then
      match typeStart ts with
      | .error e => .error e
      | .ok ((start, closed), ts) => .ok (.type start closed, ts)
    else
      match methodOrFields kind m ts with
      | .error e => .error e
      | .ok (fields, ts) => .ok (.fields fields, ts)

/-- The word or the sign that a type declaration starts with; the sign is taken with the word behind
it. -/
theorem typeKind_eq_ok {ts rest : Tokens} {kind : TypeKind} (h : typeKind ts = .ok (kind, rest)) :
    (∃ word line, ts = ⟨.ident word, line⟩ :: rest ∧ TypeKind.ofWord? word = some kind) ∨
      ∃ line after, ts = ⟨.atSign, line⟩ :: after ∧ kind = .annotationType ∧ rest = after.tail := by
  unfold typeKind at h
  split at h
  · cases h
  rename_i t after
  obtain ⟨token, line⟩ := t
  split at h
  · rename_i hsign
    cases h
    cases hsign
    exact .inr ⟨line, after, rfl, rfl, rfl⟩
  · rename_i word hword
    cases hword
    split at h
    · rename_i hkind
      cases h
      exact .inl ⟨word, line, rfl, hkind⟩
    · cases h
  · cases h

/-- Only a class with the word `extends` behind its name has a superclass; nothing is taken
otherwise. -/
theorem superclass?_eq_ok {ts rest : Tokens} {kind : TypeKind} {name : Option String}
    (h : superclass? kind ts = .ok (name, rest)) :
    (kind = .class_ ∧ next? ts = some (.ident "extends")) ∧
        (∃ type, typeName ts.tail = .ok (type, rest) ∧ name = some type) ∨
      ¬ (kind = .class_ ∧ next? ts = some (.ident "extends")) ∧ name = none ∧ rest = ts := by
  unfold superclass? at h
  split at h
  · rename_i hclause
    split at h
    · cases h
    rename_i type _ htype
    cases h
    exact .inl ⟨hclause, type, htype, rfl⟩
  · rename_i hclause
    cases h
    exact .inr ⟨hclause, rfl, rfl⟩

/-- Only a record has components; nothing is taken for another kind. -/
theorem components_eq_ok {ts rest : Tokens} {kind : TypeKind} {fields : List FieldDecl}
    (h : components kind ts = .ok (fields, rest)) :
    kind = .record ∧ recordComponents ts = .ok (fields, rest) ∨
      kind ≠ .record ∧ fields = [] ∧ rest = ts := by
  unfold components at h
  split at h
  · rename_i hrecord
    exact .inl ⟨hrecord, h⟩
  · rename_i hrecord
    cases h
    exact .inr ⟨hrecord, rfl, rfl⟩

/-- The readings that a type declaration starts with. -/
theorem typeStart_eq_ok {ts rest : Tokens} {start : TypeStart} {closed : Bool}
    (h : typeStart ts = .ok ((start, closed), rest)) :
    ∃ ts₁ ts₂ ts₃ ts₄ ts₅ ts₆,
      typeKind ts = .ok (start.kind, ts₁) ∧ identifier ts₁ = .ok (start.name, ts₂) ∧
      skipOptional .less .greater ts₂ = .ok ts₃ ∧
      components start.kind ts₃ = .ok (start.components, ts₄) ∧
      superclass? start.kind ts₄ = .ok (start.superclass?, ts₅) ∧
      openBody start.name ts₅ = .ok ts₆ ∧
      (start.kind = .enum ∧ enumConstants ts₆ = .ok (closed, rest) ∨
        start.kind ≠ .enum ∧ closed = false ∧ rest = ts₆) := by
  unfold typeStart at h
  split at h
  · cases h
  rename_i hkind
  split at h
  · cases h
  rename_i hname
  split at h
  · cases h
  rename_i hparameters
  split at h
  · cases h
  rename_i hcomponents
  split at h
  · cases h
  rename_i hsuper
  split at h
  · cases h
  rename_i hopen
  split at h
  · rename_i henum
    split at h
    · cases h
    rename_i hconstants
    cases h
    exact ⟨_, _, _, _, _, _, hkind, hname, hparameters, hcomponents, hsuper, hopen,
      .inl ⟨henum, hconstants⟩⟩
  · rename_i henum
    cases h
    exact ⟨_, _, _, _, _, _, hkind, hname, hparameters, hcomponents, hsuper, hopen,
      .inr ⟨henum, rfl, rfl⟩⟩

theorem method_eq_ok {ts rest : Tokens} (h : method ts = .ok rest) :
    ∃ after, skipBracketed .openParen .closeParen ts = .ok after ∧ methodRest after = .ok rest := by
  unfold method at h
  split at h
  · cases h
  rename_i after hparameters
  exact ⟨after, hparameters, h⟩

/-- The ways in which the rest of a member is read after its modifiers. What a parameter list
follows is a constructor if it is a type and a method if it is a name; all else declares fields. -/
inductive ReadsMethodOrFields (kind : TypeKind) (m : Modifiers) (ts rest : Tokens) :
    List FieldDecl → Prop where
  | constructor {type : String} {ts₁ ts₂ : Tokens}
      (hparameters : skipOptional .less .greater ts = .ok ts₁)
      (htype : typeName ts₁ = .ok (type, ts₂)) (hparen : next? ts₂ = some .openParen)
      (hmethod : method ts₂ = .ok rest) :
      ReadsMethodOrFields kind m ts rest []
  | method {type name : String} {ts₁ ts₂ ts₃ : Tokens}
      (hparameters : skipOptional .less .greater ts = .ok ts₁)
      (htype : typeName ts₁ = .ok (type, ts₂)) (hbare : next? ts₂ ≠ some .openParen)
      (hname : identifier ts₂ = .ok (name, ts₃)) (hparen : next? ts₃ = some .openParen)
      (hmethod : method ts₃ = .ok rest) :
      ReadsMethodOrFields kind m ts rest []
  | fields {type name : String} {names : List String} {ts₁ ts₂ ts₃ : Tokens}
      (hparameters : skipOptional .less .greater ts = .ok ts₁)
      (htype : typeName ts₁ = .ok (type, ts₂)) (hbare : next? ts₂ ≠ some .openParen)
      (hname : identifier ts₂ = .ok (name, ts₃)) (hparen : next? ts₃ ≠ some .openParen)
      (hnames : declarators name ts₃ = .ok (names, rest)) :
      ReadsMethodOrFields kind m ts rest
        (names.map (⟨·, fieldVisibility kind m, fieldIsStatic kind m⟩))

/-- There are no other ways in which the rest of a member is read. -/
theorem methodOrFields_eq_ok_iff {ts rest : Tokens} {kind : TypeKind} {m : Modifiers}
    {fields : List FieldDecl} :
    methodOrFields kind m ts = .ok (fields, rest) ↔ ReadsMethodOrFields kind m ts rest fields := by
  constructor
  · intro h
    unfold methodOrFields at h
    split at h
    · cases h
    rename_i hparameters
    split at h
    · cases h
    rename_i htype
    split at h
    · rename_i hparen
      split at h
      · cases h
      rename_i hmethod
      cases h
      exact .constructor hparameters htype hparen hmethod
    rename_i hbare
    split at h
    · cases h
    rename_i hname
    split at h
    · rename_i hparen
      split at h
      · cases h
      rename_i hmethod
      cases h
      exact .method hparameters htype hbare hname hparen hmethod
    rename_i hparen
    split at h
    · cases h
    rename_i hnames
    cases h
    exact .fields hparameters htype hbare hname hparen hnames
  · intro h
    cases h with
    | constructor hparameters htype hparen hmethod =>
      simp only [methodOrFields, hparameters, htype, if_pos hparen, hmethod]
    | method hparameters htype hbare hname hparen hmethod =>
      simp only [methodOrFields, hparameters, htype, if_neg hbare, hname, if_pos hparen, hmethod]
    | fields hparameters htype hbare hname hparen hnames =>
      simp only [methodOrFields, hparameters, htype, if_neg hbare, hname, if_neg hparen, hnames]

/-- The ways in which a member is read. -/
inductive ReadsMember (kind : TypeKind) (name : String) (ts rest : Tokens) : Member → Prop where
  | initializer {m : Modifiers} {ts₁ : Tokens} (hmodifiers : modifiers ts = .ok (m, ts₁))
      (hbrace : next? ts₁ = some .openBrace)
      (hblock : skipBracketed .openBrace .closeBrace ts₁ = .ok rest) :
      ReadsMember kind name ts rest (.fields [])
  | compact {m : Modifiers} {ts₁ : Tokens} (hmodifiers : modifiers ts = .ok (m, ts₁))
      (hbrace : next? ts₁ ≠ some .openBrace)
      (hcompact : kind = .record ∧ next? ts₁ = some (.ident name) ∧ second? ts₁ = some .openBrace)
      (hblock : skipBracketed .openBrace .closeBrace ts₁.tail = .ok rest) :
      ReadsMember kind name ts rest (.fields [])
  | type {m : Modifiers} {ts₁ : Tokens} {start : TypeStart} {closed : Bool}
      (hmodifiers : modifiers ts = .ok (m, ts₁)) (hbrace : next? ts₁ ≠ some .openBrace)
      (hcompact : ¬ (kind = .record ∧ next? ts₁ = some (.ident name) ∧
        second? ts₁ = some .openBrace))
      (hdecl : atTypeDecl ts₁ = true) (hstart : typeStart ts₁ = .ok ((start, closed), rest)) :
      ReadsMember kind name ts rest (.type start closed)
  | fields {m : Modifiers} {ts₁ : Tokens} {fields : List FieldDecl}
      (hmodifiers : modifiers ts = .ok (m, ts₁)) (hbrace : next? ts₁ ≠ some .openBrace)
      (hcompact : ¬ (kind = .record ∧ next? ts₁ = some (.ident name) ∧
        second? ts₁ = some .openBrace))
      (hdecl : ¬ atTypeDecl ts₁ = true)
      (hfields : methodOrFields kind m ts₁ = .ok (fields, rest)) :
      ReadsMember kind name ts rest (.fields fields)

/-- There are no other ways in which a member is read. -/
theorem member_eq_ok_iff {ts rest : Tokens} {kind : TypeKind} {name : String} {m : Member} :
    member kind name ts = .ok (m, rest) ↔ ReadsMember kind name ts rest m := by
  constructor
  · intro h
    unfold member at h
    split at h
    · cases h
    rename_i hmodifiers
    split at h
    · rename_i hbrace
      split at h
      · cases h
      rename_i hblock
      cases h
      exact .initializer hmodifiers hbrace hblock
    rename_i hbrace
    split at h
    · rename_i hcompact
      split at h
      · cases h
      rename_i hblock
      cases h
      exact .compact hmodifiers hbrace hcompact hblock
    rename_i hcompact
    split at h
    · rename_i hdecl
      split at h
      · cases h
      rename_i hstart
      cases h
      exact .type hmodifiers hbrace hcompact hdecl hstart
    rename_i hdecl
    split at h
    · cases h
    rename_i hfields
    cases h
    exact .fields hmodifiers hbrace hcompact hdecl hfields
  · intro h
    cases h with
    | initializer hmodifiers hbrace hblock =>
      simp only [member, hmodifiers, if_pos hbrace, hblock]
    | compact hmodifiers hbrace hcompact hblock =>
      simp only [member, hmodifiers, if_neg hbrace, if_pos hcompact, hblock]
    | type hmodifiers hbrace hcompact hdecl hstart =>
      simp only [member, hmodifiers, if_neg hbrace, if_neg hcompact, if_pos hdecl, hstart]
    | fields hmodifiers hbrace hcompact hdecl hfields =>
      simp only [member, hmodifiers, if_neg hbrace, if_neg hcompact, if_neg hdecl, hfields]

theorem length_typeKind_lt {ts rest : Tokens} {kind : TypeKind}
    (h : typeKind ts = .ok (kind, rest)) : rest.length < ts.length := by
  obtain ⟨word, line, rfl, -⟩ | ⟨line, after, rfl, -, rfl⟩ := typeKind_eq_ok h
  · simp
  · simp only [List.length_tail, List.length_cons]
    omega

theorem length_openBody_le {name : String} {ts rest : Tokens} (h : openBody name ts = .ok rest) :
    rest.length ≤ ts.length := by
  fun_induction openBody name ts with
  | case1 => cases h
  | case2 => cases h; simp
  | case3 => rename_i ih; have := ih h; simp only [List.length_cons]; omega

theorem length_enumConstants_le {ts rest : Tokens} {closed : Bool}
    (h : enumConstants ts = .ok (closed, rest)) : rest.length ≤ ts.length := by
  fun_induction enumConstants ts with
  | case1 => cases h
  | case2 => cases h; simp
  | case3 => cases h; simp
  | case4 => cases h
  | case5 => rename_i hs ih; have := ih h; have := length_skipBracketed_lt hs; omega
  | case6 => cases h
  | case7 => rename_i hs ih; have := ih h; have := length_skipBracketed_lt hs; omega
  | case8 => rename_i ih; have := ih h; simp only [List.length_cons]; omega

theorem length_superclass?_le {kind : TypeKind} {ts rest : Tokens} {name : Option String}
    (h : superclass? kind ts = .ok (name, rest)) : rest.length ≤ ts.length := by
  obtain ⟨-, type, htype, -⟩ | ⟨-, -, rfl⟩ := superclass?_eq_ok h
  · have := length_typeName_lt htype
    simp only [List.length_tail] at this
    omega
  · exact Nat.le_refl _

theorem length_components_le {kind : TypeKind} {ts rest : Tokens} {fields : List FieldDecl}
    (h : components kind ts = .ok (fields, rest)) : rest.length ≤ ts.length := by
  obtain ⟨-, hlist⟩ | ⟨-, -, rfl⟩ := components_eq_ok h
  · exact Nat.le_of_lt (length_recordComponents_lt hlist)
  · exact Nat.le_refl _

/-- At least the word for the kind is taken, so the members are read from fewer tokens. -/
theorem length_typeStart_lt {ts rest : Tokens} {start : TypeStart} {closed : Bool}
    (h : typeStart ts = .ok ((start, closed), rest)) : rest.length < ts.length := by
  obtain ⟨_, _, _, _, _, _, hkind, hname, hparameters, hcomponents, hsuper, hopen, hconstants⟩ :=
    typeStart_eq_ok h
  have := length_typeKind_lt hkind
  have := length_identifier hname
  have := length_skipOptional_le hparameters
  have := length_components_le hcomponents
  have := length_superclass?_le hsuper
  have := length_openBody_le hopen
  obtain ⟨-, hconstants⟩ | ⟨-, -, rfl⟩ := hconstants
  · have := length_enumConstants_le hconstants
    omega
  · omega

theorem length_methodRest_lt {ts rest : Tokens} (h : methodRest ts = .ok rest) :
    rest.length < ts.length := by
  fun_induction methodRest ts with
  | case1 => cases h
  | case2 => cases h; simp
  | case3 => exact length_skipBracketed_lt h
  | case4 => cases h
  | case5 => rename_i hs ih; have := ih h; have := length_skipBracketed_lt hs; omega
  | case6 => rename_i ih; have := ih h; simp only [List.length_cons]; omega

theorem length_method_lt {ts rest : Tokens} (h : method ts = .ok rest) :
    rest.length < ts.length := by
  obtain ⟨after, hparameters, hrest⟩ := method_eq_ok h
  have := length_skipBracketed_lt hparameters
  have := length_methodRest_lt hrest
  omega

theorem length_declarators_lt {name : String} {names : List String} {ts rest : Tokens}
    (h : declarators name ts = .ok (names, rest)) : rest.length < ts.length := by
  fun_induction declarators name ts generalizing names rest with
  | case1 => cases h
  | case2 => cases h
  | case3 => cases h
  | case4 name ts _ hs _ _ _ hi _ _ hr ih =>
    have := ih hr
    have := length_optionalInitializer_le hs
    have := length_skipDimensions_le ts
    have := length_identifier hi
    simp only [List.length_tail] at this
    cases h
    omega
  | case5 => cases h
  | case6 name ts _ hs _ _ _ he =>
    have := length_optionalInitializer_le hs
    have := length_skipDimensions_le ts
    have := length_expect he
    cases h
    omega

theorem length_methodOrFields_lt {kind : TypeKind} {m : Modifiers} {ts rest : Tokens}
    {fields : List FieldDecl} (h : methodOrFields kind m ts = .ok (fields, rest)) :
    rest.length < ts.length := by
  cases methodOrFields_eq_ok_iff.mp h with
  | constructor hparameters htype _ hmethod =>
    have := length_skipOptional_le hparameters
    have := length_typeName_lt htype
    have := length_method_lt hmethod
    omega
  | method hparameters htype _ hname _ hmethod =>
    have := length_skipOptional_le hparameters
    have := length_typeName_lt htype
    have := length_identifier hname
    have := length_method_lt hmethod
    omega
  | fields hparameters htype _ hname _ hnames =>
    have := length_skipOptional_le hparameters
    have := length_typeName_lt htype
    have := length_identifier hname
    have := length_declarators_lt hnames
    omega

/-- A member takes at least one token. -/
theorem length_member_lt {kind : TypeKind} {name : String} {ts rest : Tokens} {m : Member}
    (h : member kind name ts = .ok (m, rest)) : rest.length < ts.length := by
  cases member_eq_ok_iff.mp h with
  | initializer hmodifiers _ hblock =>
    have := length_modifiers_le hmodifiers
    have := length_skipBracketed_lt hblock
    omega
  | compact hmodifiers _ _ hblock =>
    have := length_modifiers_le hmodifiers
    have hblock := length_skipBracketed_lt hblock
    simp only [List.length_tail] at hblock
    omega
  | type hmodifiers _ _ _ hstart =>
    have := length_modifiers_le hmodifiers
    have := length_typeStart_lt hstart
    omega
  | fields hmodifiers _ _ _ hfields =>
    have := length_modifiers_le hmodifiers
    have := length_methodOrFields_lt hfields
    omega

abbrev Shorter (ts : Tokens) := { rest : Tokens // rest.length < ts.length }

def typeBody (kind : TypeKind) (name : String) (ts : Tokens) :
    Except Failure (TypeBody × Shorter ts) :=
  match ts with
  | [] => .error ⟨.unterminatedBody, []⟩
  | t :: ts =>
    if t.token = .closeBrace then .ok (.empty, ⟨ts, by simp⟩)
    else if t.token = .semicolon then
      match typeBody kind name ts with
      | .error e => .error e
      | .ok (body, ⟨rest, h⟩) => .ok (body, ⟨rest, by simp only [List.length_cons]; omega⟩)
    else
      match hm : member kind name (t :: ts) with
      | .error e => .error e
      | .ok (.fields fields, after) =>
        have ha := length_member_lt hm
        match typeBody kind name after with
        | .error e => .error e
        | .ok (body, ⟨rest, h⟩) =>
          .ok (TypeBody.append ⟨fields, []⟩ body, ⟨rest, by omega⟩)
      | .ok (.type start true, after) =>
        have ha := length_member_lt hm
        match typeBody kind name after with
        | .error e => .error e
        | .ok (body, ⟨rest, h⟩) =>
          .ok (TypeBody.append ⟨[], [start.withBody .empty]⟩ body, ⟨rest, by omega⟩)
      | .ok (.type start false, after) =>
        have ha := length_member_lt hm
        match typeBody start.kind start.name after with
        | .error e => .error e
        | .ok (inner, ⟨after', h'⟩) =>
          match typeBody kind name after' with
          | .error e => .error e
          | .ok (body, ⟨rest, h⟩) =>
            .ok (TypeBody.append ⟨[], [start.withBody inner]⟩ body, ⟨rest, by omega⟩)
termination_by ts.length
decreasing_by all_goals grind

def typeDecl (ts : Tokens) : Reading TypeDecl :=
  match typeStart ts with
  | .error e => .error e
  | .ok ((start, true), ts) => .ok (start.withBody .empty, ts)
  | .ok ((start, false), ts) =>
    match typeBody start.kind start.name ts with
    | .error e => .error e
    | .ok (body, ⟨rest, _⟩) => .ok (start.withBody body, rest)

/-- A declaration is its start alone, where that ends the body, or its start and the body behind it.
-/
theorem typeDecl_eq_ok {ts rest : Tokens} {t : TypeDecl} (h : typeDecl ts = .ok (t, rest)) :
    (∃ start, typeStart ts = .ok ((start, true), rest) ∧ t = start.withBody .empty) ∨
      ∃ (start : TypeStart) (after : Tokens) (body : TypeBody) (left : Shorter after),
        typeStart ts = .ok ((start, false), after) ∧
          typeBody start.kind start.name after = .ok (body, left) ∧
          t = start.withBody body ∧ rest = left.1 := by
  unfold typeDecl at h
  split at h
  · cases h
  · rename_i start _ hstart
    cases h
    exact .inl ⟨start, hstart, rfl⟩
  · rename_i start after hstart
    split at h
    · cases h
    · rename_i hbody
      cases h
      exact .inr ⟨start, after, _, _, hstart, hbody, rfl, rfl⟩

theorem length_typeDecl_lt {ts rest : Tokens} {t : TypeDecl}
    (h : typeDecl ts = .ok (t, rest)) : rest.length < ts.length := by
  obtain ⟨_, hstart, -⟩ | ⟨_, _, _, left, hstart, -, -, rfl⟩ := typeDecl_eq_ok h
  · exact length_typeStart_lt hstart
  · exact Nat.lt_trans left.2 (length_typeStart_lt hstart)

end WireMapper.Java
