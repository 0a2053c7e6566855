import WireMapper.Java.Parser.Modifiers

/-!
Type names in declarations, and the component lists of records, which are lists of typed names.
-/

namespace WireMapper.Java

/-- Takes the later segments of a type name, each with its type arguments. -/
def typeSegments (ts : Tokens) : Reading (List String) :=
  match ts with
  | ⟨.dot, _⟩ :: ⟨.ident text, _⟩ :: ts =>
    match _h : skipOptional .less .greater ts with
    | .error e => .error e
    | .ok rest =>
      match typeSegments rest with
      | .error e => .error e
      | .ok (names, rest) => .ok (text :: names, rest)
  | ts => .ok ([], ts)
termination_by ts.length
decreasing_by
  have := length_skipOptional_le _h
  simp only [List.length_cons]; omega

def skipDimensions : Tokens → Tokens
  | ⟨.openBracket, _⟩ :: ⟨.closeBracket, _⟩ :: ts => skipDimensions ts
  | ts => ts

def skipDots : Tokens → Tokens
  | ⟨.dot, _⟩ :: ts => skipDots ts
  | ts => ts

/-- Takes a type: annotations, a name with type arguments after any segment, array brackets and
dots. Only the segments of the name are kept. -/
def typeName (ts : Tokens) : Reading String :=
  match modifiers ts with
  | .error e => .error e
  | .ok (_, ts) =>
    match qualifiedName ts with
    | .error e => .error e
    | .ok (name, ts) =>
      match skipOptional .less .greater ts with
      | .error e => .error e
      | .ok ts =>
        match typeSegments ts with
        | .error e => .error e
        | .ok (names, ts) => .ok (Text.join '.' (name :: names), skipDots (skipDimensions ts))

theorem length_typeSegments_le {ts rest : Tokens} {names : List String}
    (h : typeSegments ts = .ok (names, rest)) : rest.length ≤ ts.length := by
  fun_induction typeSegments ts generalizing names rest with
  | case1 => cases h
  | case2 => cases h
  | case3 =>
    rename_i hs _ _ hr ih
    have := ih hr
    have := length_skipOptional_le hs
    simp only [Except.ok.injEq, Prod.mk.injEq] at h
    simp only [List.length_cons, ← h.2]
    omega
  | case4 => simp_all

theorem length_skipDimensions_le (ts : Tokens) : (skipDimensions ts).length ≤ ts.length := by
  fun_induction skipDimensions ts with
  | case1 => rename_i ih; simp only [List.length_cons]; omega
  | case2 => simp

theorem length_skipDots_le (ts : Tokens) : (skipDots ts).length ≤ ts.length := by
  fun_induction skipDots ts with
  | case1 => rename_i ih; simp only [List.length_cons]; omega
  | case2 => simp

/-- The readings that a type is made of, in order. Of what they take only the segments of the name
are kept. -/
theorem typeName_eq_ok {ts rest : Tokens} {name : String} (h : typeName ts = .ok (name, rest)) :
    ∃ m ts₁ first ts₂ ts₃ names ts₄, modifiers ts = .ok (m, ts₁) ∧
      qualifiedName ts₁ = .ok (first, ts₂) ∧ skipOptional .less .greater ts₂ = .ok ts₃ ∧
      typeSegments ts₃ = .ok (names, ts₄) ∧ name = Text.join '.' (first :: names) ∧
      rest = skipDots (skipDimensions ts₄) := by
  unfold typeName at h
  split at h
  · cases h
  rename_i hmodifiers
  split at h
  · cases h
  rename_i hname
  split at h
  · cases h
  rename_i harguments
  split at h
  · cases h
  rename_i hsegments
  cases h
  exact ⟨_, _, _, _, _, _, _, hmodifiers, hname, harguments, hsegments, rfl, rfl⟩

/-- A type takes at least the first segment of its name. -/
theorem length_typeName_lt {ts rest : Tokens} {name : String}
    (h : typeName ts = .ok (name, rest)) : rest.length < ts.length := by
  obtain ⟨_, _, _, _, _, _, ts₄, hmodifiers, hname, harguments, hsegments, -, rfl⟩ :=
    typeName_eq_ok h
  have := length_modifiers_le hmodifiers
  have := length_qualifiedName_lt hname
  have := length_skipOptional_le harguments
  have := length_typeSegments_le hsegments
  have := length_skipDots_le (skipDimensions ts₄)
  have := length_skipDimensions_le ts₄
  omega

def recordComponentsFrom (ts : Tokens) : Reading (List FieldDecl) :=
  if next? ts = some .closeParen then .ok ([], ts.tail)
  else
    match _hm : modifiers ts with
    | .error e => .error e
    | .ok (_, ts) =>
      match _ht : typeName ts with
      | .error e => .error e
      | .ok (_, ts) =>
        match _hi : identifier ts with
        | .error e => .error e
        | .ok (name, ts) =>
          if next? ts = some .comma then
            match recordComponentsFrom ts.tail with
            | .error e => .error e
            | .ok (fields, ts) => .ok (⟨name, .private_, false⟩ :: fields, ts)
          else
            match expect .closeParen ts with
            | .error e => .error e
            | .ok (_, ts) => .ok ([⟨name, .private_, false⟩], ts)
termination_by ts.length
decreasing_by
  have := length_modifiers_le _hm
  have := length_typeName_lt _ht
  have := length_identifier _hi
  simp only [List.length_tail]; omega

def recordComponents (ts : Tokens) : Reading (List FieldDecl) :=
  match expect .openParen ts with
  | .error e => .error e
  | .ok (_, ts) => recordComponentsFrom ts

theorem length_recordComponentsFrom_le {ts rest : Tokens} {fields : List FieldDecl}
    (h : recordComponentsFrom ts = .ok (fields, rest)) : rest.length ≤ ts.length := by
  fun_induction recordComponentsFrom ts generalizing fields rest with
  | case1 => cases h; simp
  | case2 => cases h
  | case3 => cases h
  | case4 => cases h
  | case5 => cases h
  | case6 =>
    rename_i hm _ _ ht _ _ hi _ _ _ hr ih
    have := length_modifiers_le hm
    have := length_typeName_lt ht
    have := length_identifier hi
    have := ih hr
    simp only [Except.ok.injEq, Prod.mk.injEq] at h
    simp only [List.length_tail] at this
    rw [← h.2]
    omega
  | case7 => cases h
  | case8 =>
    rename_i hm _ _ ht _ _ hi _ _ _ he
    have := length_modifiers_le hm
    have := length_typeName_lt ht
    have := length_identifier hi
    have := length_expect he
    simp only [Except.ok.injEq, Prod.mk.injEq] at h
    rw [← h.2]
    omega

theorem recordComponents_eq_ok {ts rest : Tokens} {fields : List FieldDecl}
    (h : recordComponents ts = .ok (fields, rest)) :
    ∃ after, expect .openParen ts = .ok ((), after) ∧
      recordComponentsFrom after = .ok (fields, rest) := by
  unfold recordComponents at h
  split at h
  · cases h
  rename_i after hopen
  exact ⟨after, hopen, h⟩

theorem length_recordComponents_lt {ts rest : Tokens} {fields : List FieldDecl}
    (h : recordComponents ts = .ok (fields, rest)) : rest.length < ts.length := by
  obtain ⟨after, hopen, hlist⟩ := recordComponents_eq_ok h
  have := length_expect hopen
  have := length_recordComponentsFrom_le hlist
  omega

end WireMapper.Java
