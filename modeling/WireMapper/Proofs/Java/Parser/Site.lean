import WireMapper.Proofs.Java.Parser.Body

/-!
Bodies inside a unit. Type declarations are put together like the members of a body, and a body can
stand inside a type of the unit or inside a type nested in another. At each of these sites the unit
holds what is read from the members there, and nothing else of it depends on them.
-/

namespace WireMapper.Java

variable {ts ts' rest rest' : Tokens} {tokens : List Token} {start : TypeStart} {closed : Bool}

def modifiedStart (ts : Tokens) : Reading (TypeStart × Bool) :=
  match modifiers ts with
  | .error e => .error e
  | .ok (_, ts) => typeStart ts

theorem modifiedType_eq (ts : Tokens) :
    modifiedType ts =
      match modifiedStart ts with
      | .error e => .error e
      | .ok ((start, true), ts) => .ok (start.withBody .empty, ts)
      | .ok ((start, false), ts) =>
        (readBody start.kind start.name ts).map fun read => (start.withBody read.1, read.2) := by
  unfold modifiedType modifiedStart
  cases modifiers ts with
  | error e => rfl
  | ok read =>
  obtain ⟨m, ts⟩ := read
  simp only [typeDecl]
  cases typeStart ts with
  | error e => rfl
  | ok read =>
  obtain ⟨⟨start, closed⟩, ts⟩ := read
  cases closed with
  | true => rfl
  | false =>
      simp only [readBody]
      cases typeBody start.kind start.name ts <;> rfl

theorem modifiedStart_eq_ok (h : modifiedStart ts = .ok ((start, closed), rest)) :
    ∃ m after, modifiers ts = .ok (m, after) ∧ typeStart after = .ok ((start, closed), rest) := by
  unfold modifiedStart at h
  split at h
  · cases h
  rename_i m after hmodifiers
  exact ⟨m, after, hmodifiers, h⟩

/-- The start of a type of a unit is read the same wherever its members begin. -/
theorem modifiedStart_same (h : SameBefore rest rest' ts ts')
    (hread : modifiedStart ts = .ok ((start, closed), rest)) :
    modifiedStart ts' = .ok ((start, closed), rest') := by
  obtain ⟨_, _, hmodifiers, hstart⟩ := modifiedStart_eq_ok hread
  obtain ⟨line, after, hsuffix, hlength⟩ := typeStart_stop hstart
  obtain ⟨stop', hstop, hts, hrest⟩ :=
    h.split_openBrace (hsuffix.trans (modifiers_suffix hmodifiers)) hlength
  obtain ⟨ts₁', hmodifiers', h₁⟩ := modifiersFrom_same hstop hts hmodifiers hsuffix.length_le
  simp only [modifiedStart, modifiers, hmodifiers']
  exact typeStart_same (h₁.trans hrest) hstart

theorem modifiedStart_suffix (h : modifiedStart ts = .ok ((start, closed), rest)) :
    rest <:+ ts := by
  obtain ⟨_, _, hmodifiers, hstart⟩ := modifiedStart_eq_ok h
  exact (typeStart_suffix hstart).trans (modifiers_suffix hmodifiers)

theorem types_semicolon (line : Nat) : types (⟨.semicolon, line⟩ :: ts) = types ts := by
  rw [types, if_pos rfl]

theorem types_type {decl : TypeDecl} (hsemicolon : next? ts ≠ some .semicolon)
    (h : modifiedType ts = .ok (decl, rest)) : types ts = (types rest).map (decl :: ·) := by
  cases ts with
  | nil =>
      have hlength := length_modifiedType_lt h
      simp at hlength
  | cons t ts =>
      rw [types, if_neg fun ht => hsemicolon (congrArg some ht)]
      split
      · rename_i herror
        rw [h] at herror
        cases herror
      · rename_i hsame
        rw [h] at hsame
        cases hsame
        cases types rest <;> rfl

theorem types_error {e : Failure} (hnil : ts ≠ []) (hsemicolon : next? ts ≠ some .semicolon)
    (h : modifiedType ts = .error e) : types ts = .error e := by
  cases ts with
  | nil => exact absurd rfl hnil
  | cons t ts =>
      rw [types, if_neg fun ht => hsemicolon (congrArg some ht)]
      split
      · rename_i hsame
        rw [h] at hsame
        cases hsame
        rfl
      · rename_i hsame
        rw [h] at hsame
        cases hsame

/-- The tokens are taken as the start of a type declaration in front of some others. -/
def AcceptsStart (tokens : List Token) (start : TypeStart) (closed : Bool) : Prop :=
  ∃ front rest, words front = tokens ∧ modifiedStart (front ++ rest) = .ok ((start, closed), rest)

theorem modifiedStart_ne_ok (hnext : next? ts = some .semicolon) :
    modifiedStart ts ≠ .ok ((start, closed), rest) := by
  intro h
  have hmodifiers : modifiers ts = .ok (⟨none, false⟩, ts) := by
    apply modifiersFrom_end
    · intro word hword
      rw [hnext] at hword
      cases hword
    · intro hsign
      rw [hnext] at hsign
      cases hsign
  cases ts with
  | nil => cases hnext
  | cons t ts =>
      obtain ⟨_, line⟩ := t
      cases hnext
      simp [modifiedStart, hmodifiers, typeStart, typeKind] at h

/-- A start that is accepted once is accepted in front of anything. -/
theorem AcceptsStart.same (h : AcceptsStart tokens start closed) {front : Tokens}
    (hfront : words front = tokens) (rest : Tokens) :
    modifiedStart (front ++ rest) = .ok ((start, closed), rest) := by
  obtain ⟨front', rest', rfl, hread⟩ := h
  exact modifiedStart_same (exists_sameBefore hfront rest' rest) hread

/-- Wherever the tokens stand between type declarations, they add these to what is read after them.
-/
def AddsTypes (tokens : List Token) (decls : List TypeDecl) : Prop :=
  ∀ front, words front = tokens → ∀ after, types (front ++ after) = (types after).map (decls ++ ·)

namespace AddsTypes

variable {tokens' : List Token} {decls decls' : List TypeDecl}

theorem nil : AddsTypes [] [] := by
  intro front hfront after
  obtain rfl : front = [] := by simpa [words] using hfront
  rw [List.nil_append]
  cases types after <;> rfl

theorem append (h : AddsTypes tokens decls) (h' : AddsTypes tokens' decls') :
    AddsTypes (tokens ++ tokens') (decls ++ decls') := by
  intro front hfront after
  obtain ⟨ts₁, ts₂, rfl, h₁, h₂⟩ := exists_append_of_words hfront
  rw [List.append_assoc, h ts₁ h₁, h' ts₂ h₂]
  cases types after <;> simp [Except.map]

theorem semicolon : AddsTypes [.semicolon] [] := by
  intro front hfront after
  obtain ⟨line, rest, rfl, hrest⟩ := words_eq_cons hfront
  obtain rfl : rest = [] := by simpa [words] using hrest
  rw [List.cons_append, List.nil_append, types_semicolon]
  cases types after <;> rfl

theorem closedType (h : AcceptsStart tokens start true) :
    AddsTypes tokens [start.withBody .empty] := by
  intro front hfront after
  have hstart := h.same hfront after
  apply types_type
  · exact fun hnext => modifiedStart_ne_ok hnext hstart
  · rw [modifiedType_eq, hstart]

/-- A type declaration: its start, its members and the closing brace. -/
theorem type {inner : List Token} {body : TypeBody} (h : AcceptsStart tokens start false)
    (hinner : Adds start.kind start.name inner body) :
    AddsTypes (tokens ++ (inner ++ [.closeBrace])) [start.withBody body] := by
  intro front hfront after
  obtain ⟨ts₁, ts₂, rfl, h₁, h₂⟩ := exists_append_of_words hfront
  have hstart := h.same h₁ (ts₂ ++ after)
  rw [List.append_assoc]
  apply types_type
  · exact fun hnext => modifiedStart_ne_ok hnext hstart
  · rw [modifiedType_eq, hstart]
    simp only [hinner.readBody_append h₂, Except.map]

end AddsTypes

/-- The tokens are taken as type declarations, to the last of them. -/
def AcceptsTypes (tokens : List Token) (decls : List TypeDecl) : Prop :=
  ∃ ts, words ts = tokens ∧ types ts = .ok decls

theorem exists_acceptsStart (h : modifiedStart ts = .ok ((start, closed), rest)) :
    ∃ front, ts = front ++ rest ∧ AcceptsStart (words front) start closed := by
  obtain ⟨front, rfl⟩ := modifiedStart_suffix h
  exact ⟨front, rfl, front, rest, rfl, h⟩

/-- A declaration that is read adds its type wherever it stands. -/
theorem exists_addsTypes {decl : TypeDecl} (h : modifiedType ts = .ok (decl, rest)) :
    ∃ front, ts = front ++ rest ∧ AddsTypes (words front) [decl] := by
  rw [modifiedType_eq] at h
  split at h
  · cases h
  · rename_i start after hstart
    cases h
    obtain ⟨front, rfl, haccepts⟩ := exists_acceptsStart hstart
    exact ⟨front, rfl, AddsTypes.closedType haccepts⟩
  · rename_i start after hstart
    obtain ⟨front, rfl, haccepts⟩ := exists_acceptsStart hstart
    obtain ⟨read, hbody, hsame⟩ := map_eq_ok.mp h
    cases hsame
    obtain ⟨inner, line, rfl, hinner⟩ := exists_adds_of_readBody hbody
    refine ⟨front ++ (inner ++ [⟨.closeBrace, line⟩]), by simp, ?_⟩
    have hall := AddsTypes.type haccepts hinner
    simpa [words] using hall

/-- So does a whole list of declarations. -/
theorem addsTypes_of_types {decls : List TypeDecl} (h : types ts = .ok decls) :
    AddsTypes (words ts) decls := by
  fun_induction types ts generalizing decls with
  | case1 =>
      cases h
      exact AddsTypes.nil
  | case2 t ts ht ih =>
      have hall := AddsTypes.semicolon.append (ih h)
      simpa [words, ht] using hall
  | case3 => cases h
  | case4 => cases h
  | case5 t ts _ decl rest hdecl decls hdecls ih =>
      cases h
      obtain ⟨front, hts, hfront⟩ := exists_addsTypes hdecl
      rw [hts, words_append]
      exact hfront.append (ih hdecls)

theorem AcceptsTypes.adds {decls : List TypeDecl} (h : AcceptsTypes tokens decls) :
    AddsTypes tokens decls := by
  obtain ⟨ts, rfl, hread⟩ := h
  exact addsTypes_of_types hread

/-- Between the tokens `front` and `back` stand members of a type of the given kind and name, which
is a type of the unit or nested in one. With a body there, `fill` are the types of the unit. -/
inductive Site :
    TypeKind → String → List Token → List Token → (TypeBody → List TypeDecl) → Prop where
  | top {before head after : List Token} {decls decls' : List TypeDecl} {start : TypeStart}
      (hbefore : AcceptsTypes before decls) (hhead : AcceptsStart head start false)
      (hafter : AcceptsTypes after decls') :
      Site start.kind start.name (before ++ head) (.closeBrace :: after)
        fun body => decls ++ start.withBody body :: decls'
  | nested {kind : TypeKind} {name : String} {front back before head after : List Token}
      {fill : TypeBody → List TypeDecl} {b b' : TypeBody} {start : TypeStart}
      (h : Site kind name front back fill) (hbefore : AcceptsMembers kind name before b)
      (hhead : AcceptsMember kind name head (.type start false))
      (hafter : AcceptsMembers kind name after b') :
      Site start.kind start.name (front ++ (before ++ head)) (.closeBrace :: (after ++ back))
        fun body => fill (b.append (TypeBody.append ⟨[], [start.withBody body]⟩ b'))

/-- The types of a unit are those around the site with the body in its place. -/
theorem Site.addsTypes {kind : TypeKind} {name : String} {front back : List Token}
    {fill : TypeBody → List TypeDecl} (h : Site kind name front back fill) {body : TypeBody}
    (hbody : Adds kind name tokens body) : AddsTypes (front ++ (tokens ++ back)) (fill body) := by
  induction h generalizing tokens body with
  | top hbefore hhead hafter =>
      have hall := (hbefore.adds.append (AddsTypes.type hhead hbody)).append hafter.adds
      simpa using hall
  | nested _ hbefore hhead hafter ih =>
      have hall := ih (hbefore.adds.append ((Adds.type hhead hbody).append hafter.adds))
      simpa using hall

/-- The tokens in front of `after` are a unit's package and imports. -/
def ReadsHeader (header : List Token) (package? : Option String) (is : List Import)
    (after : List Token) : Prop :=
  ∀ ts, words ts = header ++ after → ∃ ts₁ ts₂, packageDecl ts = .ok (package?, ts₁) ∧
    imports ts₁ = .ok (is, ts₂) ∧ words ts₂ = after

def HasTokens (source : String) (tokens : List Token) : Prop :=
  ∃ ts, scan source = .ok ts ∧ words ts = tokens

theorem hasTokens_of_scan {source : String} (h : scan source = .ok (placed tokens)) :
    HasTokens source tokens :=
  ⟨placed tokens, h, words_placed tokens⟩

/-- Behind the package and the imports, a source is parsed as its types are read. -/
theorem ReadsHeader.exists_types {source : String} {header after : List Token}
    {package? : Option String} {is : List Import} (h : ReadsHeader header package? is after)
    (hsource : HasTokens source (header ++ after)) :
    ∃ ts rest, words rest = after ∧ CompilationUnit.parse source =
      match types rest with
      | .error f => .error ⟨f.line ts, f.fault⟩
      | .ok decls => .ok ⟨package?, is, decls⟩ := by
  obtain ⟨ts, hscan, hts⟩ := hsource
  obtain ⟨ts₁, ts₂, hpackage, himports, h₂⟩ := h ts hts
  refine ⟨ts, ts₂, h₂, ?_⟩
  simp only [CompilationUnit.parse, hscan, compilationUnit, hpackage, himports]
  cases types ts₂ <;> rfl

/-- The package, the imports and the types make up the unit. -/
theorem ReadsHeader.parse_eq {source : String} {header after : List Token}
    {package? : Option String} {is : List Import} {decls : List TypeDecl}
    (h : ReadsHeader header package? is after) (hdecls : AddsTypes after decls)
    (hsource : HasTokens source (header ++ after)) :
    CompilationUnit.parse source = .ok ⟨package?, is, decls⟩ := by
  obtain ⟨ts, rest, hrest, hparse⟩ := h.exists_types hsource
  have hread := hdecls rest hrest []
  rw [List.append_nil, types] at hread
  simp only [hparse, hread, Except.map, List.append_nil]

/-- A unit around the members of one of its types. -/
structure UnitFrame (kind : TypeKind) (name : String) where
  header : List Token
  package? : Option String
  imports : List Import
  front : List Token
  back : List Token
  fill : TypeBody → List TypeDecl
  site : Site kind name front back fill
  reads : ∀ tokens, ReadsHeader header package? imports (front ++ tokens)

namespace UnitFrame

variable {kind : TypeKind} {name : String}

def around (frame : UnitFrame kind name) (members : List Token) : List Token :=
  frame.header ++ (frame.front ++ (members ++ frame.back))

def unit (frame : UnitFrame kind name) (body : TypeBody) : CompilationUnit :=
  ⟨frame.package?, frame.imports, frame.fill body⟩

/-- A source is parsed to the unit that holds what its members add. -/
theorem parse {source : String} {members : List Token} {body : TypeBody}
    (frame : UnitFrame kind name) (hbody : Adds kind name members body)
    (hsource : HasTokens source (frame.around members)) :
    CompilationUnit.parse source = .ok (frame.unit body) :=
  (frame.reads (members ++ frame.back)).parse_eq (frame.site.addsTypes hbody) hsource

end UnitFrame

/-- Nothing stands in front of a type declaration that starts with its own word. -/
theorem readsHeader_nil {word : String} (hword : ∀ m : Modifiers, m.add? word = none)
    (hpackage : word ≠ "package") (himport : word ≠ "import")
    (hafter : tokens.head? ≠ some (.other '-')) :
    ReadsHeader [] none [] (.ident word :: tokens) := by
  intro ts hts
  rw [List.nil_append] at hts
  have hmodifiers : modifiers ts = .ok (⟨none, false⟩, ts) :=
    modifiersFrom_of_word (hword _) hafter hts
  have hnext : next? ts = some (.ident word) := by rw [next?_eq_head?, hts, List.head?_cons]
  refine ⟨ts, ts, ?_, ?_, hts⟩
  · simp [packageDecl, hmodifiers, hnext, hpackage]
  · rw [imports, if_neg (by simp [hnext, himport])]

/-- The tokens up to the brace of a plain class. -/
def classHead (name : String) : Tokens :=
  placed [.ident "class", .ident name, .openBrace]

theorem modifiers_classHead (name : String) (body : Tokens) :
    modifiers (classHead name ++ body) = .ok (⟨none, false⟩, classHead name ++ body) := by
  have hwords : words (classHead name ++ body) =
      .ident "class" :: .ident name :: .openBrace :: words body := rfl
  exact modifiersFrom_of_word rfl (by simp) hwords

/-- A plain class starts at its own word, and its members come right after the brace. -/
theorem modifiedStart_classHead (name : String) (body : Tokens) :
    modifiedStart (classHead name ++ body) =
      .ok ((⟨.class_, name, none, []⟩, false), body) := by
  rw [modifiedStart, modifiers_classHead]
  simp [classHead, placed, typeStart, typeKind, TypeKind.ofWord?, identifier, skipOptional, next?,
    components, superclass?, openBody]

def classFrame (name : String) : UnitFrame .class_ name where
  header := []
  package? := none
  imports := []
  front := [] ++ [.ident "class", .ident name, .openBrace]
  back := [.closeBrace]
  fill body := [] ++ TypeStart.withBody ⟨.class_, name, none, []⟩ body :: []
  site := by
    have hhead :
        AcceptsStart [.ident "class", .ident name, .openBrace] ⟨.class_, name, none, []⟩ false :=
      ⟨classHead name, [], rfl, modifiedStart_classHead name []⟩
    exact Site.top ⟨[], rfl, by rw [types]⟩ hhead ⟨[], rfl, by rw [types]⟩
  reads tokens := by
    apply readsHeader_nil (fun _ => rfl) (by simp) (by simp)
    simp

end WireMapper.Java
