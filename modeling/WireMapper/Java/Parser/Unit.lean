import WireMapper.Java.Parser.Declaration

/-!
Compilation units: a package, imports and type declarations, in this order, with stray semicolons
between the types.
-/

namespace WireMapper.Java

/-- Takes the package declaration, if there is one. Annotations and modifiers may come before it,
and are lost if there is none. -/
def packageDecl (ts : Tokens) : Reading (Option String) :=
  match modifiers ts with
  | .error e => .error e
  | .ok (_, ts) =>
    if next? ts = some (.ident "package") then
      match qualifiedName ts.tail with
      | .error e => .error e
      | .ok (name, ts) =>
        match expect .semicolon ts with
        | .error e => .error e
        | .ok (_, ts) => .ok (some name, ts)
    else
      .ok (none, ts)

/-- Takes the star of an import on demand. A dot without a star is taken as well. -/
def importStar (ts : Tokens) : Bool × Tokens :=
  if next? ts = some .dot then
    if second? ts = some (.other '*') then (true, ts.tail.tail) else (false, ts.tail)
  else
    (false, ts)

def importStatic (ts : Tokens) : Bool × Tokens :=
  if next? ts = some (.ident "static") then (true, ts.tail) else (false, ts)

def importDecl (ts : Tokens) : Reading Import :=
  match qualifiedName (importStatic ts).2 with
  | .error e => .error e
  | .ok (path, rest) =>
    match expect .semicolon (importStar rest).2 with
    | .error e => .error e
    | .ok (_, after) => .ok (⟨path, (importStatic ts).1, (importStar rest).1⟩, after)

theorem length_importStar_le (ts : Tokens) : (importStar ts).2.length ≤ ts.length := by
  unfold importStar
  split
  · split <;> simp only [List.length_tail] <;> omega
  · exact Nat.le_refl _

theorem length_importStatic_le (ts : Tokens) : (importStatic ts).2.length ≤ ts.length := by
  unfold importStatic
  split
  · simp only [List.length_tail]; omega
  · exact Nat.le_refl _

/-- Modifiers are taken also where no package declaration comes after them. -/
theorem packageDecl_eq_ok {ts rest : Tokens} {package : Option String}
    (h : packageDecl ts = .ok (package, rest)) :
    ∃ m ts₁, modifiers ts = .ok (m, ts₁) ∧
      (next? ts₁ = some (.ident "package") ∧
          (∃ name ts₂, qualifiedName ts₁.tail = .ok (name, ts₂) ∧
            expect .semicolon ts₂ = .ok ((), rest) ∧ package = some name) ∨
        next? ts₁ ≠ some (.ident "package") ∧ package = none ∧ rest = ts₁) := by
  unfold packageDecl at h
  split at h
  · cases h
  rename_i m ts₁ hmodifiers
  refine ⟨m, ts₁, hmodifiers, ?_⟩
  split at h
  · rename_i hword
    split at h
    · cases h
    rename_i hname
    split at h
    · cases h
    rename_i hend
    cases h
    exact .inl ⟨hword, _, _, hname, hend, rfl⟩
  · rename_i hword
    cases h
    exact .inr ⟨hword, rfl, rfl⟩

/-- An import is a name between the word `static` and a star, each of which may be missing, and a
semicolon. -/
theorem importDecl_eq_ok {ts rest : Tokens} {i : Import} (h : importDecl ts = .ok (i, rest)) :
    ∃ path after, qualifiedName (importStatic ts).2 = .ok (path, after) ∧
      expect .semicolon (importStar after).2 = .ok ((), rest) ∧
      i = ⟨path, (importStatic ts).1, (importStar after).1⟩ := by
  unfold importDecl at h
  split at h
  · cases h
  rename_i hpath
  split at h
  · cases h
  rename_i hend
  cases h
  exact ⟨_, _, hpath, hend, rfl⟩

theorem length_importDecl_lt {ts rest : Tokens} {i : Import}
    (h : importDecl ts = .ok (i, rest)) : rest.length < ts.length := by
  obtain ⟨path, after, hpath, hend, -⟩ := importDecl_eq_ok h
  have h1 := length_qualifiedName_lt hpath
  have h2 := length_importStar_le after
  have h3 := length_expect hend
  have h4 := length_importStatic_le ts
  omega

def imports (ts : Tokens) : Reading (List Import) :=
  if next? ts = some (.ident "import") then
    match _h : importDecl ts.tail with
    | .error e => .error e
    | .ok (i, ts) =>
      match imports ts with
      | .error e => .error e
      | .ok (is, ts) => .ok (i :: is, ts)
  else
    .ok ([], ts)
termination_by ts.length
decreasing_by
  have := length_importDecl_lt _h
  simp only [List.length_tail] at this
  omega

def modifiedType (ts : Tokens) : Reading TypeDecl :=
  match modifiers ts with
  | .error e => .error e
  | .ok (_, ts) => typeDecl ts

theorem modifiedType_eq_ok {ts rest : Tokens} {t : TypeDecl}
    (h : modifiedType ts = .ok (t, rest)) :
    ∃ m after, modifiers ts = .ok (m, after) ∧ typeDecl after = .ok (t, rest) := by
  unfold modifiedType at h
  split at h
  · cases h
  rename_i m after hmodifiers
  exact ⟨m, after, hmodifiers, h⟩

theorem length_modifiedType_lt {ts rest : Tokens} {t : TypeDecl}
    (h : modifiedType ts = .ok (t, rest)) : rest.length < ts.length := by
  obtain ⟨m, after, hmodifiers, hdecl⟩ := modifiedType_eq_ok h
  have := length_modifiers_le hmodifiers
  have := length_typeDecl_lt hdecl
  omega

def types (ts : Tokens) : Except Failure (List TypeDecl) :=
  match ts with
  | [] => .ok []
  | t :: ts =>
    if t.token = .semicolon then types ts
    else
      match _h : modifiedType (t :: ts) with
      | .error e => .error e
      | .ok (decl, rest) =>
        match types rest with
        | .error e => .error e
        | .ok decls => .ok (decl :: decls)
termination_by ts.length
decreasing_by
  · simp
  · exact length_modifiedType_lt _h

def compilationUnit (ts : Tokens) : Except Failure CompilationUnit :=
  match packageDecl ts with
  | .error e => .error e
  | .ok (package, ts) =>
    match imports ts with
    | .error e => .error e
    | .ok (imports, ts) =>
      match types ts with
      | .error e => .error e
      | .ok types => .ok ⟨package, imports, types⟩

/-- The line of the first of the tokens at a failure. At the end of the source it is the line of the
last token there is, and the first line if there is none. -/
def Failure.line (f : Failure) (ts : Tokens) : Nat :=
  match f.rest.head? with
  | some t => t.line
  | none => (ts.getLast?.map (·.line)).getD 1

def CompilationUnit.parse (source : String) : Except ParseError CompilationUnit :=
  match scan source with
  | .error e => .error ⟨e.line, .lexical e.fault⟩
  | .ok ts =>
    match compilationUnit ts with
    | .error f => .error ⟨f.line ts, f.fault⟩
    | .ok unit => .ok unit

end WireMapper.Java
